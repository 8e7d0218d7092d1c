import VmNode.Proofs.Network.Live
import VmNode.Proofs.Network.Wiring

/-!
# Published ports

Every port of a slot was asked for by a call, and a port without rules is in the making as
long as its slot is not being given back: a call in progress is about to write its rules
down or to take the reservation back (`Traffic.Booked`). A port that has its rules keeps them
as long as the instance holds the slot (`Traffic.Keeps`).

So this is what the answer to a call that publishes a port is worth
(`Traffic.published_reply`). If the port is new, the instance holds the slot, is not giving
it back, and the port has both of its rules, and keeps them. If the port was published
already, the instance holds the slot and exactly this port is among its ports; but the slot
may be being given back, and the rules may still be on their way, in a call that can fail
(`Traffic.not_forwarding_of_repeat`).
-/

namespace VmNode

/-! ### Where ports come from -/

section Origin

variable {c : NetworkConfig} {ownerBase : Option Nat} {p p' : Pool} {progress : Progress}
variable {s : Nat} {g' : Holding} {q : UInt16} {port : PublishedPort}

/-- A port was there before, or the call that begins reserves it, still without rules. -/
theorem Call.Begins.port_origin {call : Call} (h : call.Begins c ownerBase p p' progress)
    (hfind' : p'.slots.find? s = some g') (hport : g'.ports.find? q = some port) :
    (∃ g, p.slots.find? s = some g ∧ g.holder = g'.holder ∧
      (g'.releasing = false → g.releasing = false) ∧ g.ports.find? q = some port) ∨
    ∃ n phase, call = .publish g'.holder n ⟨q, port.guestPort⟩ ∧ n.slot.toNat = s ∧
      port.rules = [] ∧ progress = .going (.publish g'.holder n ⟨q, port.guestPort⟩ phase) ∧
      ∀ rule rest, phase ≠ .orphan rule rest := by
  cases h with
  | refused | known => exact .inl ⟨g', hfind', rfl, id, hport⟩
  | lease =>
    rcases Table.find?_insert_eq_some hfind' with ⟨-, rfl⟩ | ⟨-, hold⟩
    · simp at hport
    · exact .inl ⟨g', hold, rfl, id, hport⟩
  | @release l g hfind hholder hfree =>
    rcases Table.find?_insert_eq_some hfind' with ⟨rfl, rfl⟩ | ⟨-, hold⟩
    · exact .inl ⟨g, hfind, rfl, fun _ => hfree, hport⟩
    · exact .inl ⟨g', hold, rfl, id, hport⟩
  | @publish id n m g hnone hfind hholder hfree =>
    -- it is the port that is reserved, or another one of the same slot
    rcases Table.find?_insert_eq_some hfind' with ⟨rfl, rfl⟩ | ⟨-, hold⟩
    · rcases Table.find?_insert_eq_some hport with ⟨rfl, rfl⟩ | ⟨-, hport⟩
      · subst hholder
        exact .inr ⟨n, _, rfl, rfl, rfl, rfl, by simp [PublishPhase.installing, Job.portRules]⟩
      · exact .inl ⟨g, hfind, rfl, fun _ => hfree, hport⟩
    · exact .inl ⟨g', hold, rfl, fun h => h, hport⟩

/-- A later step of a call adds no port; it writes down the rules of the port that the call
    publishes. -/
theorem Job.Settles.port_origin {job : Job} (h : job.Settles p p' progress) (hfits : job.Fits p)
    (hfind' : p'.slots.find? s = some g') (hport : g'.ports.find? q = some port) :
    ∃ g port₀, p.slots.find? s = some g ∧ g.holder = g'.holder ∧ g.releasing = g'.releasing ∧
      g.ports.find? q = some port₀ ∧ port₀.guestPort = port.guestPort ∧
      (port₀ = port ∨ ∃ n, job = .publish g.holder n ⟨q, port.guestPort⟩ (.record port.rules) ∧
        progress = .done (.ok (.published true))) := by
  cases h with
  | @leased id slot link rules =>
    rw [Pool.record, Table.modify, show p.slots.find? slot = _ from hfits] at hfind'
    rcases Table.find?_insert_eq_some hfind' with ⟨-, rfl⟩ | ⟨-, hold⟩
    · simp at hport
    · exact ⟨g', port, hold, rfl, rfl, hport, rfl, .inl rfl⟩
  | unleased | released =>
    exact ⟨g', port, (Table.find?_erase_eq_some hfind').2, rfl, rfl, hport, rfl, .inl rfl⟩
  | @published id n m rules g port₀ hfind hholder hfree hport₀ =>
    rcases Table.find?_insert_eq_some hfind' with ⟨rfl, rfl⟩ | ⟨-, hold⟩
    · rcases Table.find?_insert_eq_some hport with ⟨rfl, rfl⟩ | ⟨-, hport⟩
      · subst hholder
        -- what is reserved is the mapping that the call is about
        obtain rfl := Option.some.inj (hport₀.symm.trans (hfits g hfind rfl))
        exact ⟨g, _, hfind, rfl, rfl, hport₀, rfl, .inr ⟨n, rfl, rfl⟩⟩
      · exact ⟨g, port, hfind, rfl, rfl, hport, rfl, .inl rfl⟩
    · exact ⟨g', port, hold, rfl, rfl, hport, rfl, .inl rfl⟩
  | orphaned | forgotten => exact ⟨g', port, hfind', rfl, rfl, hport, rfl, .inl rfl⟩
  | @unpublished id n m cause g hfind hholder =>
    rcases Table.find?_insert_eq_some hfind' with ⟨rfl, rfl⟩ | ⟨-, hold⟩
    · exact ⟨g, port, hfind, rfl, rfl, (Table.find?_erase_eq_some hport).2, rfl, .inl rfl⟩
    · exact ⟨g', port, hold, rfl, rfl, hport, rfl, .inl rfl⟩

/-- The rules of a port are written down for the instance that holds the slot, unless it
    gives it back. -/
theorem Pool.recordPort?_ne_none {id : InstanceId} {m : PortMapping} {g : Holding}
    (hfind : p.slots.find? s = some g) (hholder : g.holder = id) (hfree : g.releasing = false)
    (hport : g.ports.find? m.hostPort = some port) (rules : List FirewallRule) :
    p.recordPort? id s m rules ≠ none := by
  simp [recordPort?, heldBy?_eq_some.2 ⟨hfind, hholder⟩, hfree, hport]

/-- A call that is through with a port leaves it with its rules or not at all, unless the
    slot is being given back. -/
theorem Job.Settles.notMem_making {id : InstanceId} {n : NetworkInfo} {m : PortMapping}
    {phase : PublishPhase} (h : (Job.publish id n m phase).Settles p p' progress)
    (hjob : (Job.publish id n m phase).Wired c ownerBase p)
    (hfind' : p'.slots.find? n.slot.toNat = some g') (hholder' : g'.holder = id)
    (hfree' : g'.releasing = false) (guestPort : UInt16) :
    g'.ports.find? m.hostPort ≠ some ⟨guestPort, []⟩ := fun hport => by
  cases h with
  | @published _ _ _ rules g port₀ =>
    -- the rules that were written down are both of them
    rw [Table.find?_insert_self, Option.some.injEq] at hfind'
    subst hfind'
    rw [Table.find?_insert_self, Option.some.injEq, PublishedPort.mk.injEq] at hport
    exact GuestLink.portRules_ne_nil _ _ _ (hjob.2.symm.trans hport.2)
  -- rules are refused only if the slot was given back
  | orphaned hlost => exact Pool.recordPort?_ne_none hfind' hholder' hfree' hport _ hlost
  | unpublished =>
    rw [Table.find?_insert_self, Option.some.injEq] at hfind'
    subst hfind'
    simp at hport
  | forgotten hlost =>
    rw [Pool.heldBy?_eq_some.2 ⟨hfind', hholder'⟩] at hlost
    cases hlost

/-- A call that publishes a port and goes on after a step on the host still publishes it. -/
theorem Job.publish_of_answer (c : NetworkConfig) (result : Except Error Unit) (id : InstanceId)
    (n : NetworkInfo) (m : PortMapping) {phase : PublishPhase}
    (hphase : ∀ rule rest, phase ≠ .orphan rule rest) :
    ∃ phase', (Job.publish id n m phase).answer c result = .going (.publish id n m phase') ∧
      ∀ rule rest, phase' ≠ .orphan rule rest := by
  cases phase with
  | orphan => exact absurd rfl (hphase _ _)
  | install done rule rest =>
    cases result with
    | ok => cases rest <;> exact ⟨_, rfl, by simp [PublishPhase.installing]⟩
    | error e => cases hr : done.reverse <;> exact ⟨_, rfl, by simp [PublishPhase.undoing, hr]⟩
  | undo rule rest cause =>
    cases result <;> cases rest <;> exact ⟨_, rfl, by simp [PublishPhase.undoing]⟩
  | record | abandon => cases result <;> exact ⟨_, rfl, by simp⟩

end Origin

section Keeps

variable {c : NetworkConfig} {ownerBase : Option Nat} {p p' : Pool} {progress : Progress}
variable {id : InstanceId} {s : Nat} {q : UInt16} {port : PublishedPort}

/-- As long as an instance holds a slot, a port stays as it is when another call begins. -/
theorem Call.Begins.keeps {call : Call} (h : call.Begins c ownerBase p p' progress)
    (hp : p.Regular c ownerBase) (hcall : call ≠ .lease id)
    (hkept : ∀ g, p.slots.find? s = some g → g.holder = id → g.ports.find? q = some port) :
    ∀ g, p'.slots.find? s = some g → g.holder = id → g.ports.find? q = some port := by
  intro g hfind hholder
  cases h with
  | refused | known => exact hkept g hfind hholder
  | lease =>
    -- the slot was free, and the instance that takes it is another one
    rcases Table.find?_insert_eq_some hfind with ⟨-, rfl⟩ | ⟨-, hold⟩
    · exact absurd (congrArg Call.lease hholder) hcall
    · exact hkept g hold hholder
  | @release l g₀ hfind₀ =>
    rcases Table.find?_insert_eq_some hfind with ⟨rfl, rfl⟩ | ⟨-, hold⟩
    · exact hkept g₀ hfind₀ hholder
    · exact hkept g hold hholder
  | @publish id' n m g₀ hnone hfind₀ =>
    rcases Table.find?_insert_eq_some hfind with ⟨rfl, rfl⟩ | ⟨-, hold⟩
    · have hmine := hkept g₀ hfind₀ hholder
      -- a port that is reserved is not among the ports yet
      have hne : q ≠ m.hostPort := fun heq => by
        rw [heq, hp.find?_ports_eq_none hnone hfind₀] at hmine
        cases hmine
      rw [Table.find?_insert_of_ne _ _ hne]
      exact hmine
    · exact hkept g hold hholder

/-- As long as an instance holds a slot, a port that has its rules stays as it is when a call
    takes a step. -/
theorem Job.Settles.keeps {job : Job} (h : job.Settles p p' progress) (hfits : job.Fits p)
    (hrules : port.rules ≠ [])
    (hkept : ∀ g, p.slots.find? s = some g → g.holder = id → g.ports.find? q = some port) :
    ∀ g, p'.slots.find? s = some g → g.holder = id → g.ports.find? q = some port := by
  -- a port in the making has no rules, so it is another one
  have hother : ∀ (m : PortMapping) (g₀ : Holding), g₀.ports.find? q = some port →
      g₀.ports.find? m.hostPort = some ⟨m.guestPort, []⟩ → q ≠ m.hostPort :=
    fun m g₀ hmine hmaking heq => by
      rw [heq, hmaking, Option.some.injEq] at hmine
      exact hrules (hmine ▸ rfl)
  intro g hfind hholder
  cases h with
  | @leased id' slot link rules =>
    rw [Pool.record, Table.modify, show p.slots.find? slot = _ from hfits] at hfind
    rcases Table.find?_insert_eq_some hfind with ⟨rfl, rfl⟩ | ⟨-, hold⟩
    · exact hkept ⟨id', link, [], .empty, false⟩ hfits hholder
    · exact hkept g hold hholder
  -- a slot that is freed is nobody's
  | unleased | released => exact hkept g (Table.find?_erase_eq_some hfind).2 hholder
  | @published id' n m rules g₀ port₀ hfind₀ hholder₀ =>
    rcases Table.find?_insert_eq_some hfind with ⟨rfl, rfl⟩ | ⟨-, hold⟩
    · have hmine := hkept g₀ hfind₀ hholder
      rw [Table.find?_insert_of_ne _ _ (hother m g₀ hmine (hfits g₀ hfind₀ hholder₀))]
      exact hmine
    · exact hkept g hold hholder
  | orphaned | forgotten => exact hkept g hfind hholder
  | @unpublished id' n m cause g₀ hfind₀ hholder₀ =>
    rcases Table.find?_insert_eq_some hfind with ⟨rfl, rfl⟩ | ⟨-, hold⟩
    · have hmine := hkept g₀ hfind₀ hholder
      rw [Table.find?_erase_of_ne _ (hother m g₀ hmine (hfits g₀ hfind₀ hholder₀))]
      exact hmine
    · exact hkept g hold hholder

end Keeps

namespace Traffic

/-! ### Ports and the calls that publish them -/

/-- Every port was asked for, and a port without rules is in the making, unless its slot is
    being given back. -/
structure Booked (t : Traffic) : Prop where
  /-- Some call has asked for the port. -/
  asked : ∀ s g q port, t.pool.slots.find? s = some g → g.ports.find? q = some port →
    ∃ k n, t.calls.find? k = some (.publish g.holder n ⟨q, port.guestPort⟩) ∧ n.slot.toNat = s
  /-- The call that makes a port is in progress. -/
  making : ∀ s g q guestPort, t.pool.slots.find? s = some g → g.releasing = false →
    g.ports.find? q = some ⟨guestPort, []⟩ →
    ∃ k n phase, t.jobs.find? k = some (.publish g.holder n ⟨q, guestPort⟩ phase) ∧
      n.slot.toNat = s ∧ ∀ rule rest, phase ≠ .orphan rule rest

namespace Booked

variable {t u : Traffic}

theorem start (c : NetworkConfig) (ownerBase : Option Nat) : (start c ownerBase).Booked where
  asked := fun s g q port h => by simp [Traffic.start, Pool.empty] at h
  making := fun s g q guestPort h => by simp [Traffic.start, Pool.empty] at h

theorem begin (ht : t.Booked) (hord : t.Orderly) {call : Call} {p : Pool} {progress : Progress}
    (hbegins : call.Begins t.config t.ownerBase t.pool p progress) :
    ({ t with pool := p, calls := t.calls.insert t.calls.size call }.setProgress
      t.calls.size progress).Booked := by
  have hfresh := hord.sound.numbered.find?_size
  constructor
  case asked =>
    intro s g q port hfind hport
    rw [pool_setProgress] at hfind
    rw [calls_setProgress]
    rcases hbegins.port_origin hfind hport with ⟨g₀, hfind₀, hholder, -, hport₀⟩ |
      ⟨n, phase, hcall, hslot, -⟩
    · obtain ⟨k, n, hk, hslot⟩ := ht.asked s g₀ q port hfind₀ hport₀
      have hne : k ≠ t.calls.size := fun heq => by rw [heq, hfresh] at hk; cases hk
      exact ⟨k, n, by rw [Table.find?_insert_of_ne _ _ hne, ← hholder]; exact hk, hslot⟩
    · -- the port is that of the call that begins
      exact ⟨t.calls.size, n, by rw [Table.find?_insert_self, hcall], hslot⟩
  case making =>
    intro s g q guestPort hfind hfree hport
    rw [pool_setProgress] at hfind
    rcases hbegins.port_origin hfind hport with ⟨g₀, hfind₀, hholder, hfree₀, hport₀⟩ |
      ⟨n, phase, -, hslot, -, hprog, hphase⟩
    · obtain ⟨k, n, phase, hk, hslot, hphase⟩ := ht.making s g₀ q guestPort hfind₀
        (hfree₀ hfree) hport₀
      have hne : k ≠ t.calls.size := fun heq => by
        rw [heq, hord.sound.find?_jobs_size] at hk
        cases hk
      refine ⟨k, n, phase, ?_, hslot, hphase⟩
      rw [find?_jobs_setProgress_of_ne _ _ hne, ← hholder]
      exact hk
    · refine ⟨t.calls.size, n, phase, ?_, hslot, hphase⟩
      rw [find?_jobs_setProgress_self, hprog]
      rfl

theorem settle (ht : t.Booked) {n : Nat} {job : Job} (hjob : t.jobs.find? n = some job)
    (hfits : job.Fits t.pool) (hwired : job.Wired t.config t.ownerBase t.pool) {p : Pool}
    {progress : Progress} (hsettles : job.Settles t.pool p progress) :
    ({ t with pool := p }.setProgress n progress).Booked := by
  constructor
  case asked =>
    intro s g q port hfind hport
    rw [pool_setProgress] at hfind
    rw [calls_setProgress]
    obtain ⟨g₀, port₀, hfind₀, hholder, -, hport₀, hguest, -⟩ :=
      hsettles.port_origin hfits hfind hport
    rw [← hholder, ← hguest]
    exact ht.asked s g₀ q port₀ hfind₀ hport₀
  case making =>
    intro s g q guestPort hfind hfree hport
    rw [pool_setProgress] at hfind
    obtain ⟨g₀, port₀, hfind₀, hholder, hfree₀, hport₀, -, hsame⟩ :=
      hsettles.port_origin hfits hfind hport
    -- a port whose rules are written down has some
    obtain rfl : port₀ = ⟨guestPort, []⟩ := hsame.resolve_right fun ⟨n', heq, _⟩ => by
      subst heq
      exact GuestLink.portRules_ne_nil _ _ _ hwired.2.symm
    obtain ⟨k, n', phase, hk, hslot, hphase⟩ := ht.making s g₀ q guestPort hfind₀
      (hfree₀.trans hfree) hport₀
    have hne : k ≠ n := fun heq => by
      -- the call that takes the step is not the one that makes a port which is left without
      rw [heq, hjob, Option.some.injEq] at hk
      subst hk
      exact hsettles.notMem_making hwired (hslot ▸ hfind) hholder.symm hfree guestPort hport
    refine ⟨k, n', phase, ?_, hslot, hphase⟩
    rw [find?_jobs_setProgress_of_ne _ _ hne, ← hholder]
    exact hk

theorem answer (ht : t.Booked) {n : Nat} {job : Job} (hjob : t.jobs.find? n = some job)
    (host : HostCall) (result : Except Error Unit) :
    ({ t with log := (host, result) :: t.log }.setProgress n
      (job.answer t.config result)).Booked := by
  constructor
  case asked =>
    intro s g q port hfind hport
    rw [pool_setProgress] at hfind
    rw [calls_setProgress]
    exact ht.asked s g q port hfind hport
  case making =>
    intro s g q guestPort hfind hfree hport
    rw [pool_setProgress] at hfind
    obtain ⟨k, n', phase, hk, hslot, hphase⟩ := ht.making s g q guestPort hfind hfree hport
    -- the call that makes the port is the one that is answered, or another one
    by_cases hne : k = n
    · subst hne
      rw [hjob, Option.some.injEq] at hk
      subst hk
      obtain ⟨phase', hgoing, hphase'⟩ := Job.publish_of_answer t.config result g.holder n'
        ⟨q, guestPort⟩ hphase
      refine ⟨k, n', phase', ?_, hslot, hphase'⟩
      rw [find?_jobs_setProgress_self, hgoing]
      rfl
    · refine ⟨k, n', phase, ?_, hslot, hphase⟩
      rw [find?_jobs_setProgress_of_ne _ _ hne]
      exact hk

theorem turn (ht : t.Booked) (hord : t.Orderly) (hwired : t.Wired) (h : t.Turn u) : u.Booked := by
  cases h with
  | begin _ hbegins => exact ht.begin hord hbegins
  | @settle n job _ _ hjob hsettles =>
    exact ht.settle hjob (hord.fits n job hjob) (hwired.jobs n job hjob) hsettles
  | answer hjob _ => exact ht.answer hjob _ _

end Booked

theorem Reachable.booked {c : NetworkConfig} {ownerBase : Option Nat} {t : Traffic}
    (h : Reachable c ownerBase t) : t.Booked := by
  induction h with
  | start => exact .start c ownerBase
  | step h hstep ih => exact ih.turn h.orderly h.wired (turn_of_step hstep)

/-! ### Ports that have their rules -/

/-- The instance has leased its slot, and as long as it holds the slot the port is there. -/
structure Keeps (t : Traffic) (id : InstanceId) (s : Nat) (q : UInt16) (port : PublishedPort) :
    Prop where
  /-- The instance has asked for a lease. -/
  leased : ∃ k, t.calls.find? k = some (.lease id)
  /-- The port is there as long as the instance has the slot. -/
  kept : ∀ g, t.pool.slots.find? s = some g → g.holder = id → g.ports.find? q = some port

namespace Keeps

variable {t u : Traffic} {id : InstanceId} {s : Nat} {q : UInt16} {port : PublishedPort}

theorem turn (ht : t.Keeps id s q port) (hrules : port.rules ≠ []) (hord : t.Orderly)
    (h : t.Turn u) : u.Keeps id s q port := by
  obtain ⟨k, hk⟩ := ht.leased
  cases h with
  | @begin call p progress hadmits hbegins =>
    have hne : k ≠ t.calls.size := fun heq => by
      rw [heq, hord.sound.numbered.find?_size] at hk
      cases hk
    refine ⟨⟨k, ?_⟩, fun g hfind => ?_⟩
    · rw [calls_setProgress, Table.find?_insert_of_ne _ _ hne]
      exact hk
    · rw [pool_setProgress] at hfind
      -- an instance leases no second slot
      refine hbegins.keeps hord.regular (fun hcall => ?_) ht.kept g hfind
      subst hcall
      exact find?_calls_ne_lease hadmits k hk
  | @settle n job p progress hjob hsettles =>
    refine ⟨⟨k, by rw [calls_setProgress]; exact hk⟩, fun g hfind => ?_⟩
    rw [pool_setProgress] at hfind
    exact hsettles.keeps (hord.fits n job hjob) hrules ht.kept g hfind
  | answer hjob hhost =>
    refine ⟨⟨k, by rw [calls_setProgress]; exact hk⟩, fun g hfind => ?_⟩
    rw [pool_setProgress] at hfind
    exact ht.kept g hfind

theorem play {c : NetworkConfig} {ownerBase : Option Nat} (ht : t.Keeps id s q port)
    (hrules : port.rules ≠ []) (hreach : Reachable c ownerBase t) {events : List Event}
    (h : t.play events = some u) : u.Keeps id s q port := by
  induction events generalizing t with
  | nil => exact Option.some.inj h ▸ ht
  | cons e rest ih =>
    obtain ⟨v, hstep, hrest⟩ := Option.bind_eq_some_iff.1 h
    exact ih (ht.turn hrules hreach.orderly (turn_of_step hstep)) (hreach.step hstep) hrest

end Keeps

/-- The rules on the books of a slot that is not being given back are live. -/
theorem mem_live_of_port {c : NetworkConfig} {ownerBase : Option Nat} {t : Traffic}
    (h : Reachable c ownerBase t) (hdel : t.DeletionsSucceed) {s : Nat} {g : Holding} {q : UInt16}
    {port : PublishedPort} (hfind : t.pool.slots.find? s = some g) (hfree : g.releasing = false)
    (hport : g.ports.find? q = some port) {r : FirewallRule} (hr : r ∈ port.rules) :
    .appendRule r ∈ t.live := by
  have hbooks : .appendRule r ∈ g.kept := by
    rw [Holding.kept_of_free hfree, Holding.stock_eq]
    refine Multiset.mem_add.2 (.inr (Table.mem_tally.2 ⟨q, port, hport, ?_⟩))
    exact Multiset.mem_coe.2 (List.mem_map_of_mem hr)
  have hmem : .appendRule r ∈ (t.live : Multiset HostCall) + t.missing := by
    rw [live_add_missing h.balanced (h.live_add_removed hdel)]
    exact Multiset.mem_add.2 (.inl (Table.mem_tally.2 ⟨s, g, hfind, hbooks⟩))
  rcases Multiset.mem_add.1 hmem with hlive | hmissing
  · exact Multiset.mem_coe.1 hlive
  · -- only links are missing
    obtain ⟨_, _, _, _, _, _, heq, _⟩ := h.orderly.of_mem_missing hmissing
    cases heq

end Traffic

/-! ### Answers -/

/-- A published port that has both of its rules. -/
def Pool.forwarding (c : NetworkConfig) (ownerBase : Option Nat) (id : InstanceId) (slot : Nat)
    (m : PortMapping) : PublishedPort :=
  ⟨m.guestPort, (linkFor c ownerBase id slot).portRules c m⟩

/-- A port that is answered to be new has just got its rules. -/
theorem Job.Settles.eq_publish {p p' : Pool} {job : Job} {isNew : Bool}
    (h : job.Settles p p' (.done (.ok (.published isNew)))) :
    isNew = true ∧ ∃ id n m rules g port, job = .publish id n m (.record rules) ∧
      p.slots.find? n.slot.toNat = some g ∧ g.holder = id ∧ g.releasing = false ∧
      g.ports.find? m.hostPort = some port ∧
      p'.slots.find? n.slot.toNat = some { g with
        ports := g.ports.insert m.hostPort { port with rules } } := by
  generalize hprog : Progress.done _ = progress at h
  cases h with
  | @published id n m rules g port hfind hholder hfree hport =>
    cases hprog
    exact ⟨rfl, id, n, m, rules, g, port, rfl, hfind, hholder, hfree, hport,
      Table.find?_insert_self ..⟩
  | orphaned => exact absurd hprog.symm (orphaned_ne_ok _ _ _ _ _)
  | leased | unleased | released | unpublished | forgotten => cases hprog

/-- A port that is answered not to be new was published already. -/
theorem Call.Begins.eq_publish {c : NetworkConfig} {ownerBase : Option Nat} {p p' : Pool}
    {call : Call} {isNew : Bool}
    (h : call.Begins c ownerBase p p' (.done (.ok (.published isNew)))) :
    isNew = false ∧ p' = p ∧ ∃ id n m g port, call = .publish id n m ∧
      p.slots.find? n.slot.toNat = some g ∧ g.holder = id ∧
      g.ports.find? m.hostPort = some port ∧ port.guestPort = m.guestPort := by
  cases h with
  | @known id n m hknown =>
    obtain ⟨g, port, hfind, hholder, hport, hguest⟩ := Pool.isPublished_eq_true.1 hknown
    exact ⟨rfl, rfl, id, n, m, g, port, rfl, hfind, hholder, hport, hguest⟩

namespace Traffic

variable {c : NetworkConfig} {ownerBase : Option Nat} {t u : Traffic}

/-- A port that is published has its rules, unless its slot is being given back or a call
    that installs them is in progress. -/
theorem Reachable.eq_forwarding_or_making (h : Reachable c ownerBase t) {n : NetworkInfo} {g : Holding}
    {m : PortMapping} {port : PublishedPort}
    (hfind : t.pool.slots.find? n.slot.toNat = some g) (hport : g.ports.find? m.hostPort = some port)
    (hguest : port.guestPort = m.guestPort) (hfree : g.releasing = false) :
    port = Pool.forwarding c ownerBase g.holder n.slot.toNat m ∨
      ∃ j n' phase, t.jobs.find? j = some (.publish g.holder n' m phase) ∧
        n'.slot.toNat = n.slot.toNat := by
  obtain ⟨hconfig, howner⟩ := h.config
  obtain ⟨guestPort, rules⟩ := port
  obtain rfl : guestPort = m.guestPort := hguest
  rcases (h.wired.slots _ g hfind).ports _ _ hport with hnone | hall
  · obtain rfl : rules = [] := hnone
    obtain ⟨j, n', phase, hj, hslot, -⟩ := h.booked.making _ g _ _ hfind hfree hport
    exact .inr ⟨j, n', phase, hj, hslot⟩
  · refine .inl ?_
    rw [h.orderly.regular.link _ g hfind, hconfig, howner] at hall
    exact congrArg (PublishedPort.mk m.guestPort) hall

/-- A port that has its rules keeps them as long as the instance holds the slot, and they are
    live until the slot is being given back. -/
theorem Reachable.forwarding (h : Reachable c ownerBase t) {id : InstanceId} {s : Nat}
    {g : Holding} {m : PortMapping} (hfind : t.pool.slots.find? s = some g) (hholder : g.holder = id)
    (hport : g.ports.find? m.hostPort = some (Pool.forwarding c ownerBase id s m))
    {events : List Event} (hplay : t.play events = some u) {g' : Holding}
    (hfind' : u.pool.slots.find? s = some g') (hholder' : g'.holder = id) :
    g'.ports.find? m.hostPort = some (Pool.forwarding c ownerBase id s m) ∧
      (u.DeletionsSucceed → g'.releasing = false →
        ∀ r ∈ (Pool.forwarding c ownerBase id s m).rules, .appendRule r ∈ u.live) := by
  -- the instance asked for the port, so it was granted its lease before
  obtain ⟨k, n, hk, -⟩ := h.booked.asked s g _ _ hfind hport
  obtain ⟨l, hl, hl'⟩ := h.orderly.sound.about k _ hk rfl
  obtain ⟨j, hj, -⟩ := h.orderly.sound.exists_call_of_granted hl
  have hkeeps : t.Keeps id s m.hostPort (Pool.forwarding c ownerBase id s m) := by
    refine ⟨⟨j, ?_⟩, fun g₀ hfind₀ _ => ?_⟩
    · rw [hj, hl', ← hholder]
      rfl
    · rw [hfind, Option.some.injEq] at hfind₀
      exact hfind₀ ▸ hport
  have hport' := (hkeeps.play (GuestLink.portRules_ne_nil _ _ _) h hplay).kept g' hfind' hholder'
  exact ⟨hport', fun hdel hfree r hr => mem_live_of_port (h.play hplay) hdel hfind' hfree hport' hr⟩

/-- When a call answers that a port is published, the instance holds the slot and exactly this
    port is among its ports. If the port is new, the slot is not being given back and the port
    has just got both of its rules. -/
theorem Reachable.published (h : Reachable c ownerBase t) (hturn : t.Turn u) {k : Nat}
    {isNew : Bool} (hopen : t.outcomes.find? k = none)
    (hdone : u.outcomes.find? k = some (.ok (.published isNew))) :
    ∃ id n m g port, u.calls.find? k = some (.publish id n m) ∧
      u.pool.slots.find? n.slot.toNat = some g ∧ g.holder = id ∧
      g.ports.find? m.hostPort = some port ∧ port.guestPort = m.guestPort ∧
      (isNew = true → g.releasing = false ∧
        port = Pool.forwarding c ownerBase id n.slot.toNat m) := by
  -- the call that takes the step is the one that has its answer now
  have hended : ∀ {t' : Traffic} {n : Nat} {progress : Progress},
      (t'.setProgress n progress).outcomes.find? k = some (.ok (.published isNew)) →
      t'.outcomes.find? n = none → t'.outcomes = t.outcomes →
      k = n ∧ progress = .done (.ok (.published isNew)) := fun hdone hnone ht' =>
    (find?_outcomes_setProgress_eq_some hdone hnone).resolve_right fun hold => by
      rw [ht', hopen] at hold
      cases hold
  cases hturn with
  | @begin call p progress hadmits hbegins =>
    obtain ⟨rfl, rfl⟩ := hended hdone h.orderly.sound.find?_outcomes_size rfl
    obtain ⟨rfl, rfl, id, n, m, g, port, rfl, hfind, hholder, hport, hguest⟩ := hbegins.eq_publish
    refine ⟨id, n, m, g, port, ?_, by rwa [pool_setProgress], hholder, hport, hguest, by simp⟩
    rw [calls_setProgress, Table.find?_insert_self]
  | @settle n job p progress hjob hsettles =>
    obtain ⟨rfl, rfl⟩ := hended hdone (h.orderly.sound.pending n job hjob) rfl
    obtain ⟨rfl, id, n, m, rules, g, port, rfl, hfind, hholder, hfree, hport, hfind'⟩ :=
      hsettles.eq_publish
    obtain ⟨hconfig, howner⟩ := h.config
    have hmine : g.ports.find? m.hostPort = some ⟨m.guestPort, []⟩ :=
      h.orderly.fits _ _ hjob g hfind hholder
    obtain rfl := Option.some.inj (hport.symm.trans hmine)
    refine ⟨id, n, m, { g with ports := g.ports.insert m.hostPort ⟨m.guestPort, rules⟩ },
      ⟨m.guestPort, rules⟩, ?_, by rwa [pool_setProgress], hholder, Table.find?_insert_self .., rfl,
      fun _ => ⟨hfree, ?_⟩⟩
    · rw [calls_setProgress]
      exact h.orderly.sound.current _ _ hjob
    · have hall := (h.wired.jobs _ _ hjob).2
      rw [hconfig, howner] at hall
      exact congrArg (PublishedPort.mk m.guestPort) hall
  | @answer n job host result hjob hhost =>
    obtain ⟨-, hprog⟩ := hended hdone (h.orderly.sound.pending n job hjob) rfl
    exact absurd hprog (job.answer_ne_ok _ _ _)

/-- When a call answers that a port is published, the instance holds the slot and exactly this
    port is among its ports. If the port is new, the slot is not being given back, and the
    port has both of its rules. If it is not, and the slot is not being given back, the port
    has both of its rules or a call that installs them is in progress. A port that has both
    keeps them as long as the instance holds the slot, and they are live until the slot is
    being given back. -/
theorem published_reply {e : Event} {k : Nat} {isNew : Bool} (h : Reachable c ownerBase t)
    (hstep : t.step e = some u) (hopen : t.outcomes.find? k = none)
    (hdone : u.outcomes.find? k = some (.ok (.published isNew))) :
    ∃ id n m g port, u.calls.find? k = some (.publish id n m) ∧
      u.pool.slots.find? n.slot.toNat = some g ∧ g.holder = id ∧
      g.ports.find? m.hostPort = some port ∧ port.guestPort = m.guestPort ∧
      (isNew = true → g.releasing = false ∧
        port = Pool.forwarding c ownerBase id n.slot.toNat m) ∧
      (isNew = false → g.releasing = false →
        port = Pool.forwarding c ownerBase id n.slot.toNat m ∨
        ∃ j n' phase, u.jobs.find? j = some (.publish id n' m phase) ∧
          n'.slot.toNat = n.slot.toNat) ∧
      (port = Pool.forwarding c ownerBase id n.slot.toNat m →
        ∀ events v, u.play events = some v → ∀ g', v.pool.slots.find? n.slot.toNat = some g' →
          g'.holder = id → g'.ports.find? m.hostPort = some port ∧
            (v.DeletionsSucceed → g'.releasing = false →
              ∀ r ∈ port.rules, .appendRule r ∈ v.live)) := by
  have hu := h.step hstep
  obtain ⟨id, n, m, g, port, hcall, hfind, rfl, hport, hguest, hnew⟩ :=
    h.published (turn_of_step hstep) hopen hdone
  refine ⟨g.holder, n, m, g, port, hcall, hfind, rfl, hport, hguest, hnew,
    fun _ => hu.eq_forwarding_or_making hfind hport hguest,
    fun hall events v hplay g' hfind' hholder' => ?_⟩
  subst hall
  exact hu.forwarding hfind rfl hport hplay hfind' hholder'

/-- The lease of the first instance. -/
def firstLease : Lease := Job.leaseOf "i-1" 0 (Pool.linkFor {} none "i-1" 0)

/-- An instance leases a slot. -/
def leasing : List Event :=
  [.begin (.lease "i-1"), .answer 0 (.ok ()), .answer 0 (.ok ()), .answer 0 (.ok ()),
    .answer 0 (.ok ()), .settle 0]

/-- A port of the host is published for the first instance. -/
def publishing : Call := .publish "i-1" firstLease.info ⟨8080, 80⟩

/-- The call that publishes a port first is told that it is new, and the port has its rules. -/
theorem forwarding_publishing : ∃ t u g,
    (start {} none).play (leasing ++ [.begin publishing, .answer 1 (.ok ()), .answer 1 (.ok ())]) =
      some t ∧ t.step (.settle 1) = some u ∧ u.pool.slots.find? 0 = some g ∧
    g.releasing = false ∧
    g.ports.find? 8080 = some (Pool.forwarding {} none "i-1" 0 ⟨8080, 80⟩) := by
  let t := ((start {} none).play
    (leasing ++ [.begin publishing, .answer 1 (.ok ()), .answer 1 (.ok ())])).get (by decide +kernel)
  have hplay : (start {} none).play _ = some t := (Option.some_get _).symm
  let u := (t.step (.settle 1)).get (by decide +kernel)
  have hstep : t.step (.settle 1) = some u := (Option.some_get _).symm
  have hopen : (t.outcomes.find? 1).isNone := by decide +kernel
  have hdone : u.outcomes.find? 1 = some (.ok (.published true)) := by decide +kernel
  obtain ⟨id, n, m, g, port, hcall, hfind, -, hport, -, hnew, -⟩ :=
    published_reply (Reachable.start.play hplay) hstep (Option.isNone_iff_eq_none.1 hopen) hdone
  have hpublishing : u.calls.find? 1 = some publishing := by decide +kernel
  rw [hpublishing, Option.some.injEq, publishing, Call.publish.injEq] at hcall
  obtain ⟨rfl, rfl, rfl⟩ := hcall
  obtain ⟨hfree, rfl⟩ := hnew rfl
  exact ⟨t, u, g, hplay, hstep, hfind, hfree, hport⟩

/-- A call can answer that a port is published though nothing is installed for it: when
    another call has reserved it and fails afterwards, and when the slot is being given back.
    In the first case the instance still holds its slot in the end, and the port is not
    published. -/
theorem not_forwarding_of_repeat :
    (∃ t u v, (start {} none).play (leasing ++ [.begin publishing]) = some t ∧
      t.step (.begin publishing) = some u ∧
      u.outcomes.find? 2 = some (.ok (.published false)) ∧
      (u.pool.heldBy? 0 "i-1").map (·.ports.find? 8080) = some (some ⟨80, []⟩) ∧
      u.play [.answer 1 (.error (.network "no chain")), .settle 1] = some v ∧ v.isIdle ∧
      (v.pool.heldBy? 0 "i-1").map (fun g => (g.releasing, g.ports.find? 8080)) =
        some (false, none)) ∧
    ∃ t u, (start {} none).play
        (leasing ++ [.begin publishing, .begin (.release firstLease)]) = some t ∧
      t.step (.begin publishing) = some u ∧
      u.outcomes.find? 3 = some (.ok (.published false)) ∧
      (u.pool.heldBy? 0 "i-1").map (fun g => (g.releasing, g.ports.find? 8080)) =
        some (true, some ⟨80, []⟩) := by
  refine ⟨?_, ?_⟩
  · let t := ((start {} none).play (leasing ++ [.begin publishing])).get (by decide +kernel)
    let u := (t.step (.begin publishing)).get (by decide +kernel)
    let v := (u.play [.answer 1 (.error (.network "no chain")), .settle 1]).get (by decide +kernel)
    exact ⟨t, u, v, (Option.some_get _).symm, (Option.some_get _).symm, by decide +kernel,
      by decide +kernel, (Option.some_get _).symm, by decide +kernel, by decide +kernel⟩
  · let t := ((start {} none).play
      (leasing ++ [.begin publishing, .begin (.release firstLease)])).get (by decide +kernel)
    let u := (t.step (.begin publishing)).get (by decide +kernel)
    exact ⟨t, u, (Option.some_get _).symm, (Option.some_get _).symm, by decide +kernel,
      by decide +kernel⟩

end Traffic

end VmNode
