import VmNode.Proofs.Network.Balance
import VmNode.Proofs.Network.Reserve
import VmNode.Proofs.Network.Told

/-!
# Which rules go where

A rule on the books of a slot is one of the rules that go with its link or, for a published
port, one of the two that carry the traffic of this port to the guest of the slot. A port
has both of them or none (`Holding.Wired`). So it is with the rules on the books of a call
in progress (`Job.Wired`): a call that publishes a port has at most the rules of this port,
and a call that gives a slot back has at most what stood on the books of the slot.
-/

namespace VmNode

/-- The rules that carry the traffic of a published port to the guest of a link. -/
def GuestLink.portRules (c : NetworkConfig) (l : GuestLink) (m : PortMapping) :
    List FirewallRule :=
  [.redirect c.serviceInterface m.hostPort l.guest m.guestPort,
    .forwardPublished c.serviceInterface l.hostLink l.guest m.guestPort]

/-- A port has rules. -/
theorem GuestLink.portRules_ne_nil (c : NetworkConfig) (l : GuestLink) (m : PortMapping) :
    l.portRules c m ≠ [] := by
  simp [portRules]

/-- The rules that a call installs for a port are those of the link that it was told. -/
theorem Job.portRules_eq {c : NetworkConfig} {l : GuestLink} {n : NetworkInfo} (m : PortMapping)
    (h : n.guest = l.guest) : portRules c l.hostLink n m = l.portRules c m := by
  rw [portRules, GuestLink.portRules, h]

/-! ### The rules of a slot -/

/-- The rules on the books of a slot are its own, and a port has all of its rules or none. -/
structure Holding.Wired (c : NetworkConfig) (g : Holding) : Prop where
  /-- Its own rules are those that go with its link. -/
  lease : g.rules ⊆ Job.leaseRules c g.link
  /-- A port has no rules or both of them. -/
  ports : ∀ q port, g.ports.find? q = some port →
    port.rules = [] ∨ port.rules = g.link.portRules c ⟨q, port.guestPort⟩

namespace Holding.Wired

variable {c : NetworkConfig} {g : Holding}

/-- A slot that was just taken has no rules. -/
theorem new (c : NetworkConfig) (id : InstanceId) (link : GuestLink) :
    Wired c ⟨id, link, [], .empty, false⟩ where
  lease := List.nil_subset _
  ports := fun q port h => by simp at h

/-- A port is entered without rules or with all of them. -/
theorem insert (h : g.Wired c) {q : UInt16} {port : PublishedPort}
    (hport : port.rules = [] ∨ port.rules = g.link.portRules c ⟨q, port.guestPort⟩) :
    Wired c { g with ports := g.ports.insert q port } where
  lease := h.lease
  ports := fun q' port' hq => by
    rcases Table.find?_insert_eq_some hq with ⟨rfl, rfl⟩ | ⟨-, hold⟩
    · exact hport
    · exact h.ports q' port' hold

/-- A port goes with its rules. -/
theorem erase (h : g.Wired c) (q : UInt16) :
    Wired c { g with ports := g.ports.erase q } where
  lease := h.lease
  ports := fun q' port' hq => h.ports q' port' (Table.find?_erase_eq_some hq).2

end Holding.Wired

/-! ### The rules of a call in progress -/

/-- The rules that a lease in that phase has installed or will install. -/
def LeasePhase.rules : LeasePhase → List FirewallRule
  | .install done rule rest => done ++ rule :: rest
  | .record rules => rules
  | .undo rule rest _ => rule :: rest
  | .create | .unlink _ | .abandon _ => []

/-- Of these rules, a call that publishes a port has installed the first and goes on with
    the others, or it has still to remove the last of them in the opposite order. -/
def PublishPhase.Carries (all : List FirewallRule) : PublishPhase → Prop
  | .install done rule rest => done ++ rule :: rest = all
  | .record rules => rules = all
  | .undo rule rest _ | .orphan rule rest => rule :: rest <:+ all.reverse
  | .abandon _ => True

section Phases

variable {all done rest : List FirewallRule} {cause : Error}

@[simp] theorem LeasePhase.rules_installing : (installing done rest).rules = done ++ rest := by
  cases rest <;> simp [installing, rules]

@[simp] theorem LeasePhase.rules_undoing : (undoing cause rest).rules = rest := by
  cases rest <;> rfl

@[simp] theorem PublishPhase.carries_installing :
    (installing done rest).Carries all ↔ done ++ rest = all := by
  cases rest <;> simp [installing, Carries]

@[simp] theorem PublishPhase.carries_undoing :
    (undoing cause rest).Carries all ↔ rest <:+ all.reverse := by
  cases rest <;> simp [undoing, Carries]

/-- What a call has installed for a port are rules of this port. -/
theorem PublishPhase.Carries.loose_le {phase : PublishPhase} (h : phase.Carries all) :
    phase.loose ≤ HostCall.rules all := by
  have hsuffix : ∀ l : List FirewallRule, l <:+ all.reverse → HostCall.rules l ≤ HostCall.rules all :=
    fun l ⟨l', hl⟩ => by
      rw [← HostCall.rules_reverse all, ← hl, HostCall.rules_append]
      exact Multiset.le_add_left _ _
  cases phase with
  | install done rule rest =>
    rw [← show done ++ rule :: rest = all from h, HostCall.rules_append]
    exact Multiset.le_add_right _ _
  | record rules => exact le_of_eq (congrArg HostCall.rules h)
  | undo rule rest cause => exact hsuffix _ h
  | orphan rule rest => exact hsuffix _ h
  | abandon cause => exact Multiset.zero_le _

end Phases

namespace Job

variable {c : NetworkConfig} {ownerBase : Option Nat} {p p' : Pool} {job next : Job}

/-- The rules on the books of a call are those of its link, of its slot or of its port. -/
def Wired (c : NetworkConfig) (ownerBase : Option Nat) (p : Pool) : Job → Prop
  | .lease _ _ link phase => phase.rules ⊆ leaseRules c link
  | .release l link phase => ∀ g, p.slots.find? l.slot = some g → phase.loose link ≤ g.stock
  | .publish id n m phase => n.guest = c.guest n.slot.toNat ∧
    phase.Carries ((Pool.linkFor c ownerBase id n.slot.toNat).portRules c m)

/-- A step on the host leaves a call with rules that it had, or was about to install. -/
theorem Wired.answer {result : Except Error Unit} (h : job.Wired c ownerBase p)
    (hnext : job.answer c result = .going next) : next.Wired c ownerBase p := by
  cases job with
  | lease id slot link phase =>
    cases phase with
    | create =>
      cases result with
      | ok =>
        cases hnext
        simp [Wired]
      | error =>
        cases hnext
        exact List.nil_subset _
    | install done rule rest =>
      -- the rule that was to be installed is installed or is the one that the call gives up at
      have hall : done ++ rule :: rest ⊆ leaseRules c link := h
      cases result with
      | ok =>
        cases hnext
        simpa [Wired] using hall
      | error =>
        cases hnext
        intro r hr
        rw [LeasePhase.rules_undoing, List.mem_reverse] at hr
        exact hall (List.mem_append_left _ hr)
    | undo rule rest cause =>
      -- what is left to undo is the end of what was
      cases result <;>
        (cases hnext
         intro r hr
         rw [LeasePhase.rules_undoing] at hr
         exact h (List.mem_cons_of_mem _ hr))
    | record | unlink | abandon => cases result <;> (cases hnext; exact h)
  | release l link phase =>
    cases phase with
    | remove rule rest =>
      -- one rule fewer is still to be removed
      cases hnext
      intro g hfind
      refine le_trans ?_ (h g hfind)
      rw [ReleasePhase.loose_removing, ReleasePhase.loose, HostCall.rules_cons]
      exact add_le_add le_rfl (Multiset.le_add_left _ _)
    | unlink =>
      cases hnext
      exact fun g _ => Multiset.zero_le _
    | vacate =>
      cases hnext
      exact h
  | publish id n m phase =>
    obtain ⟨hguest, hcarries⟩ := h
    cases phase with
    | install done rule rest =>
      have hall : done ++ rule :: rest = _ := hcarries
      cases result with
      | ok =>
        cases hnext
        exact ⟨hguest, by simpa using hall⟩
      | error =>
        cases hnext
        refine ⟨hguest, PublishPhase.carries_undoing.2 ?_⟩
        rw [← hall, List.reverse_append]
        exact List.suffix_append _ _
    | undo rule rest cause =>
      cases result <;>
        (cases hnext
         exact ⟨hguest, PublishPhase.carries_undoing.2 ((List.suffix_cons _ _).trans hcarries)⟩)
    | orphan rule rest =>
      cases rest with
      | nil => cases hnext
      | cons rule' rest =>
        cases hnext
        exact ⟨hguest, (List.suffix_cons _ _).trans hcarries⟩
    | record | abandon => cases result <;> (cases hnext; exact ⟨hguest, hcarries⟩)

/-- A port whose slot was given back meanwhile still has its rules. -/
theorem Settles.wired_job (h : job.Settles p p' (.going next)) (hjob : job.Wired c ownerBase p) :
    next.Wired c ownerBase p' := by
  generalize hprog : Progress.going next = progress at h
  cases h with
  | @orphaned id n m rules hlost =>
    obtain ⟨hguest, hall⟩ := hjob
    cases hr : rules.reverse with
    | nil => simp [hr, Job.orphaned] at hprog
    | cons rule rest =>
      simp only [hr, Job.orphaned, Progress.going.injEq] at hprog
      subst hprog
      refine ⟨hguest, ?_⟩
      rw [← show rules = _ from hall, PublishPhase.Carries, hr]
  | leased | unleased | released | published | unpublished | forgotten => cases hprog

/-- A call relies on the books of its slot only to give it back. -/
theorem Wired.congr (h : job.Wired c ownerBase p)
    (hstock : ∀ l link phase g', job = .release l link phase → p'.slots.find? l.slot = some g' →
      ∃ g, p.slots.find? l.slot = some g ∧ g'.stock = g.stock) : job.Wired c ownerBase p' := by
  cases job with
  | lease | publish => exact h
  | release l link phase =>
    intro g' hfind'
    obtain ⟨g, hfind, heq⟩ := hstock l link phase g' rfl hfind'
    rw [heq]
    exact h g hfind

end Job

/-! ### Steps on the pool -/

section Steps

variable {c : NetworkConfig} {ownerBase : Option Nat} {p p' : Pool} {progress : Progress}

namespace Call.Begins

variable {call : Call} {job : Job}

/-- The first step of a call leaves all slots with their rules: it takes a slot without any, or
    reserves a port without any. -/
theorem wired (h : call.Begins c ownerBase p p' progress)
    (hp : ∀ s g, p.slots.find? s = some g → g.Wired c) :
    ∀ s g, p'.slots.find? s = some g → g.Wired c := by
  intro s g hfind
  cases h with
  | refused | known => exact hp s g hfind
  | lease =>
    rcases Table.find?_insert_eq_some hfind with ⟨-, rfl⟩ | ⟨-, hold⟩
    · exact .new ..
    · exact hp s g hold
  | @release l g₀ hfind₀ =>
    rcases Table.find?_insert_eq_some hfind with ⟨-, rfl⟩ | ⟨-, hold⟩
    · exact ⟨(hp _ g₀ hfind₀).lease, (hp _ g₀ hfind₀).ports⟩
    · exact hp s g hold
  | @publish id n m g₀ hport hfind₀ =>
    rcases Table.find?_insert_eq_some hfind with ⟨-, rfl⟩ | ⟨-, hold⟩
    · exact (hp _ g₀ hfind₀).insert (.inl rfl)
    · exact hp s g hold

/-- The first step of a call does not touch a slot that is being given back. -/
theorem find?_of_releasing (h : call.Begins c ownerBase p p' progress) {s : Nat} {g : Holding}
    (hfind : p.slots.find? s = some g) (hleaving : g.releasing = true) :
    p'.slots.find? s = some g := by
  have hother : ∀ s' g₀ g', p.slots.find? s' = some g₀ → g₀.releasing = false →
      (p.slots.insert s' g').find? s = some g := fun s' g₀ g' hfind₀ hfree => by
    have hne : s ≠ s' := fun hs => by
      rw [← hs, hfind, Option.some.injEq] at hfind₀
      rw [← hfind₀, hleaving] at hfree
      cases hfree
    rw [Table.find?_insert_of_ne _ _ hne, hfind]
  cases h with
  | refused | known => exact hfind
  | @lease id slot link htap hnone =>
    have hne : s ≠ slot := fun hs => by rw [hs, hnone] at hfind; cases hfind
    exact (Table.find?_insert_of_ne _ _ hne).trans hfind
  | release hfind₀ hholder hfree => exact hother _ _ _ hfind₀ hfree
  | publish hport hfind₀ hholder hfree => exact hother _ _ _ hfind₀ hfree

/-- A call that begins takes over the books of the slot that it gives back, or will install
    the rules of its port. -/
theorem wired_job (h : call.Begins c ownerBase p p' (.going job)) (hp : p.Regular c ownerBase)
    (hguest : ∀ id n m, call = .publish id n m → n.guest = c.guest n.slot.toNat) :
    job.Wired c ownerBase p' := by
  generalize hprog : Progress.going job = progress at h
  cases h with
  | refused | known => cases hprog
  | lease =>
    cases hprog
    exact List.nil_subset _
  | @release l g hfind hholder hfree =>
    -- the call takes over all that the slot has, to remove it in the opposite order
    cases hprog
    intro g' hfind'
    rw [Table.find?_insert_self, Option.some.injEq] at hfind'
    subst hfind'
    rw [ReleasePhase.loose_removing, HostCall.rules_append, HostCall.rules_reverse,
      HostCall.rules_reverse, Holding.stock, HostCall.rules_append, add_comm (HostCall.rules _)]
    exact le_rfl
  | @publish id n m g hport hfind hholder hfree =>
    -- the network identity that the call was made with shows the addresses of the slot
    cases hprog
    have hmine := hguest id n m rfl
    have hlink := hp.link _ g hfind
    rw [hholder] at hlink
    refine ⟨hmine, PublishPhase.carries_installing.2 ?_⟩
    rw [List.nil_append, ← hlink]
    exact Job.portRules_eq m (by rw [hmine, hlink]; rfl)

end Call.Begins

namespace Job.Settles

variable {job j : Job}

/-- A later step writes down the rules of a link or a port, all of them, or takes something away. -/
theorem wired (h : job.Settles p p' progress) (hjob : job.Wired c ownerBase p) (hfits : job.Fits p)
    (hreg : p.Regular c ownerBase) (hp : ∀ s g, p.slots.find? s = some g → g.Wired c) :
    ∀ s g, p'.slots.find? s = some g → g.Wired c := by
  intro s g hfind
  cases h with
  | @leased id slot link rules =>
    rw [Pool.record, Table.modify, show p.slots.find? slot = _ from hfits] at hfind
    rcases Table.find?_insert_eq_some hfind with ⟨-, rfl⟩ | ⟨-, hold⟩
    · exact ⟨hjob, (Holding.Wired.new c id link).ports⟩
    · exact hp s g hold
  | unleased | released => exact hp s g (Table.find?_erase_eq_some hfind).2
  | @published id n m rules g₀ port hfind₀ hholder hfree hport =>
    rcases Table.find?_insert_eq_some hfind with ⟨-, rfl⟩ | ⟨-, hold⟩
    · refine (hp _ g₀ hfind₀).insert (.inr ?_)
      have hmine : g₀.ports.find? m.hostPort = some ⟨m.guestPort, []⟩ := hfits g₀ hfind₀ hholder
      obtain rfl := Option.some.inj (hport.symm.trans hmine)
      rw [hreg.link _ g₀ hfind₀, hholder]
      exact hjob.2
    · exact hp s g hold
  | orphaned | forgotten => exact hp s g hfind
  | @unpublished id n m cause g₀ hfind₀ =>
    rcases Table.find?_insert_eq_some hfind with ⟨-, rfl⟩ | ⟨-, hold⟩
    · exact (hp _ g₀ hfind₀).erase _
    · exact hp s g hold

/-- A slot that is being given back keeps its stock when another call takes a step. -/
theorem stock_of_releasing (h : job.Settles p p' progress) (hfits : job.Fits p) {l : Lease}
    {link : GuestLink} {phase : ReleasePhase} (hj : (Job.release l link phase).Fits p)
    (hapart : job.Apart (.release l link phase)) {g' : Holding}
    (hfind' : p'.slots.find? l.slot = some g') :
    ∃ g, p.slots.find? l.slot = some g ∧ g'.stock = g.stock := by
  obtain ⟨g, hfind, -, -, hleaving⟩ := hj
  cases h with
  | @leased id slot link' rules =>
    have hne : l.slot ≠ slot := fun hs => hapart hs.symm
    rw [Pool.record, Table.find?_modify_of_ne _ _ hne] at hfind'
    exact ⟨g', hfind', rfl⟩
  | unleased | released => exact ⟨g', (Table.find?_erase_eq_some hfind').2, rfl⟩
  | @published id n m rules g₀ port hfind₀ hholder hfree =>
    rcases Table.find?_insert_eq_some hfind' with ⟨hs, -⟩ | ⟨-, hold⟩
    · rw [← hs, hfind, Option.some.injEq] at hfind₀
      rw [← hfind₀, hleaving] at hfree
      cases hfree
    · exact ⟨g', hold, rfl⟩
  | orphaned | forgotten => exact ⟨g', hfind', rfl⟩
  | @unpublished id n m cause g₀ hfind₀ hholder =>
    rcases Table.find?_insert_eq_some hfind' with ⟨hs, rfl⟩ | ⟨-, hold⟩
    · -- the port that is taken back has no rules
      exact ⟨g₀, hs ▸ hfind₀, Holding.stock_unpublish (hfits g₀ hfind₀ hholder)⟩
    · exact ⟨g', hold, rfl⟩

end Job.Settles

end Steps

namespace Traffic

/-- The rules on the books of slots and calls are those of their links and ports. -/
structure Wired (t : Traffic) : Prop where
  /-- All slots have their rules. -/
  slots : ∀ s g, t.pool.slots.find? s = some g → g.Wired t.config
  /-- What a call has installed or is to remove are rules of its slot. -/
  jobs : ∀ n job, t.jobs.find? n = some job → job.Wired t.config t.ownerBase t.pool

namespace Wired

variable {t u : Traffic}

theorem start (c : NetworkConfig) (ownerBase : Option Nat) : (start c ownerBase).Wired where
  slots := fun s g h => by simp [Traffic.start, Pool.empty] at h
  jobs := fun n job h => by simp [Traffic.start] at h

/-- One call takes a step, and the rules are where they belong. -/
theorem setProgress {n : Nat} {progress : Progress}
    (hslots : ∀ s g, t.pool.slots.find? s = some g → g.Wired t.config)
    (hmine : ∀ job, progress = .going job → job.Wired t.config t.ownerBase t.pool)
    (hothers : ∀ m j, m ≠ n → t.jobs.find? m = some j → j.Wired t.config t.ownerBase t.pool) :
    (t.setProgress n progress).Wired where
  slots := by simpa using hslots
  jobs := fun m job hm => by
    rw [config_setProgress, ownerBase_setProgress, pool_setProgress]
    rcases find?_jobs_setProgress_eq_some hm with ⟨-, hprog⟩ | ⟨hne, hold⟩
    · exact hmine job hprog
    · exact hothers m job hne hold

theorem turn (ht : t.Wired) (hord : t.Orderly) (htold : t.Told) (h : t.Turn u) : u.Wired := by
  cases h with
  | @begin call p progress hadmits hbegins =>
    refine setProgress (hbegins.wired ht.slots) (fun job hprog => ?_) (fun m j _ hj => ?_)
    · subst hprog
      refine hbegins.wired_job hord.regular fun id n m hcall => ?_
      subst hcall
      exact htold.guest (by simpa [admits] using hadmits)
    · refine (ht.jobs m j hj).congr fun l link phase g' hrel hfind' => ?_
      subst hrel
      obtain ⟨g, hfind, -, -, hleaving⟩ := hord.fits m _ hj
      rw [hbegins.find?_of_releasing hfind hleaving, Option.some.injEq] at hfind'
      exact ⟨g, hfind, congrArg Holding.stock hfind'.symm⟩
  | @settle n job p progress hjob hsettles =>
    have hfits := hord.fits n job hjob
    refine setProgress (hsettles.wired (ht.jobs n job hjob) hfits hord.regular ht.slots)
      (fun next hprog => ?_) (fun m j hm hj => ?_)
    · subst hprog
      exact hsettles.wired_job (ht.jobs n job hjob)
    · refine (ht.jobs m j hj).congr fun l link phase g' hrel hfind' => ?_
      subst hrel
      exact hsettles.stock_of_releasing hfits (hord.fits m _ hj)
        (hord.apart n m _ _ hm.symm hjob hj) hfind'
  | @answer n job host result hjob hhost =>
    refine setProgress ht.slots (fun next hprog => ?_) (fun m j _ hj => ht.jobs m j hj)
    exact (ht.jobs n job hjob).answer hprog

end Wired

theorem Reachable.wired {c : NetworkConfig} {ownerBase : Option Nat} {t : Traffic}
    (h : Reachable c ownerBase t) : t.Wired := by
  induction h with
  | start => exact .start c ownerBase
  | step h hstep ih => exact ih.turn h.orderly h.told (turn_of_step hstep)

end Traffic

end VmNode
