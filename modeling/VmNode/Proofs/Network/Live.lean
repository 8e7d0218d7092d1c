import VmNode.Network.ScriptedHost
import VmNode.Proofs.Network.Balance

/-!
# Links that are live

As long as the host takes down whatever it is asked to, what stands there is what was
built and not taken down again (`Traffic.Reachable.live_add_removed`), so the balance of
the allocator says which links are live: those of slots that are held, except where a call
in progress has not built the link yet or has taken it down (`Traffic.find?_of_live`). A
link is therefore built only when no link that is live has one of its names or addresses
(`Traffic.slots_links_ports`).
-/

namespace VmNode

/-- Whether a step takes something down. -/
def HostCall.isDeletion : HostCall → Bool
  | .deleteLink _ | .deleteRule _ => true
  | .createLink _ | .appendRule _ => false

/-- A step that builds nothing and takes something down. -/
theorem HostCall.eq_erase_of_isDeletion {host : HostCall} (h : host.isDeletion) :
    host.built = 0 ∧ ∃ b, host.removed = {b} ∧ ∀ live, host.applyTo live = live.erase b := by
  cases host with
  | deleteLink l => exact ⟨rfl, _, rfl, fun _ => rfl⟩
  | deleteRule r => exact ⟨rfl, _, rfl, fun _ => rfl⟩
  | createLink | appendRule => cases h

theorem HostCall.eq_append_of_not_isDeletion {host : HostCall} (h : host.isDeletion = false) :
    host.removed = 0 ∧ host.built = {host} ∧ ∀ live, host.applyTo live = live ++ [host] := by
  cases host with
  | createLink | appendRule => exact ⟨rfl, rfl, fun _ => rfl⟩
  | deleteLink | deleteRule => cases h

/-- A call takes down its own link, or what is on its own books. -/
theorem Job.removed_le {job : Job} {host : HostCall} (h : job.hostCall? = some host) :
    host.removed ≤ job.loose ∨
      ∃ id slot link cause, job = .lease id slot link (.unlink cause) ∧
        host.removed = {.createLink link} := by
  cases job with
  | lease id slot link phase =>
    cases phase with
    | create | install =>
      cases h
      exact .inl (Multiset.zero_le _)
    | undo =>
      cases h
      exact .inl (Multiset.singleton_le.2 (by simp [loose, LeasePhase.loose]))
    | unlink cause =>
      -- a slot whose rules failed has its link taken down, which is not among what is loose
      cases h
      exact .inr ⟨id, slot, link, cause, rfl, rfl⟩
    | record | abandon => cases h
  | release l link phase =>
    cases phase with
    | remove =>
      cases h
      exact .inl (Multiset.singleton_le.2 (by simp [loose, ReleasePhase.loose]))
    | unlink =>
      cases h
      exact .inl le_rfl
    | vacate => cases h
  | publish id n m phase =>
    cases phase with
    | install =>
      cases h
      exact .inl (Multiset.zero_le _)
    | undo | orphan =>
      cases h
      exact .inl (Multiset.singleton_le.2 (by simp [loose, PublishPhase.loose]))
    | record | abandon => cases h

/-- A link is built for a slot being leased. -/
theorem Job.eq_lease_of_createLink {job : Job} {link : GuestLink}
    (h : job.hostCall? = some (.createLink link)) :
    ∃ id slot, job = .lease id slot link .create := by
  cases job with
  | lease id slot link' phase =>
    cases phase with
    | create =>
      cases h
      exact ⟨id, slot, rfl⟩
    | install | record | undo | unlink | abandon => cases h
  | release l link' phase => cases phase <;> cases h
  | publish id n m phase => cases phase <;> cases h

/-- The link that is missing is that of a slot being leased. -/
theorem Job.mem_missing {job : Job} {b : HostCall} (h : b ∈ job.missing) :
    ∃ id slot link phase, job = .lease id slot link phase ∧ b = .createLink link ∧
      (phase = .create ∨ ∃ cause, phase = .abandon cause) := by
  cases job with
  | lease id slot link phase =>
    cases phase with
    | create => exact ⟨id, slot, link, _, rfl, Multiset.mem_singleton.1 h, .inl rfl⟩
    | abandon cause => exact ⟨id, slot, link, _, rfl, Multiset.mem_singleton.1 h, .inr ⟨cause, rfl⟩⟩
    | install | record | undo | unlink => simp [missing, LeasePhase.missing] at h
  | release | publish => simp [missing] at h

/-- The link on the books of a call is that of a slot being given back. -/
theorem Job.mem_loose {job : Job} {link : GuestLink} (h : .createLink link ∈ job.loose) :
    ∃ l phase, job = .release l link phase := by
  cases job with
  | lease id slot link' phase =>
    cases phase <;> simp [loose, LeasePhase.loose, HostCall.createLink_notMem_rules] at h
  | release l link' phase =>
    cases phase with
    | remove | unlink =>
      obtain rfl : link = link' := by
        simpa [loose, ReleasePhase.loose, HostCall.createLink_notMem_rules] using h
      exact ⟨l, _, rfl⟩
    | vacate => simp [loose, ReleasePhase.loose] at h
  | publish id n m phase =>
    cases phase <;> simp [loose, PublishPhase.loose, HostCall.createLink_notMem_rules] at h

namespace Traffic

/-- What stands on the host: what was built, in order, without what was taken down. -/
def live (t : Traffic) : List HostCall :=
  t.log.foldr (fun e live => if e.2.isOk then e.1.applyTo live else live) []

/-- The host took down all that it was asked to. -/
def DeletionsSucceed (t : Traffic) : Prop := ∀ e ∈ t.log, e.1.isDeletion → e.2.isOk

instance (t : Traffic) : Decidable t.DeletionsSucceed :=
  inferInstanceAs (Decidable (∀ e ∈ t.log, e.1.isDeletion → e.2.isOk))

section Orderly

variable {t : Traffic} {n : Nat} {job : Job} {b : HostCall} {link : GuestLink}

/-- A link that is missing is that of a slot which no call gives back, and the call that
    leases this slot is the only one to miss it. -/
theorem Orderly.of_mem_missing (ht : t.Orderly) (h : b ∈ t.missing) :
    ∃ n id slot link phase, t.jobs.find? n = some (.lease id slot link phase) ∧
      b = .createLink link ∧ (phase = .create ∨ ∃ cause, phase = .abandon cause) ∧
      t.pool.slots.find? slot = some ⟨id, link, [], .empty, false⟩ := by
  obtain ⟨n, job, hjob, hmem⟩ := Table.mem_tally.1 h
  obtain ⟨id, slot, link, phase, rfl, hb, hphase⟩ := job.mem_missing hmem
  exact ⟨n, id, slot, link, phase, hjob, hb, hphase, ht.fits n _ hjob⟩

/-- A link on the books of a call is that of a slot being given back. -/
theorem Orderly.of_mem_loose (ht : t.Orderly) (h : .createLink link ∈ t.loose) :
    ∃ s g, t.pool.slots.find? s = some g ∧ g.link = link ∧ g.releasing = true := by
  obtain ⟨n, job, hjob, hmem⟩ := Table.mem_tally.1 h
  obtain ⟨l, phase, rfl⟩ := job.mem_loose hmem
  obtain ⟨g, hfind, -, hlink, hleaving⟩ := ht.fits n _ hjob
  exact ⟨l.slot, g, hfind, hlink, hleaving⟩

/-- What is missing is on the books of no call. -/
theorem Orderly.notMem_loose (ht : t.Orderly) (h : b ∈ t.missing) : b ∉ t.loose := fun hloose => by
  -- a link that is missing is that of a slot being leased, and one on the books of a call is
  -- that of a slot being given back
  obtain ⟨n, id, slot, link, phase, -, rfl, -, hfind⟩ := ht.of_mem_missing h
  obtain ⟨s, g, hfind', hlink, hleaving⟩ := ht.of_mem_loose hloose
  obtain rfl := ht.regular.eq_of_link_eq hfind' hfind hlink
  rw [hfind, Option.some.injEq] at hfind'
  rw [← hfind'] at hleaving
  cases hleaving

/-- What a call takes down is on the books, and is not missing. -/
theorem Orderly.of_mem_removed (ht : t.Orderly) (hjob : t.jobs.find? n = some job)
    {host : HostCall} (hhost : job.hostCall? = some host) (hb : b ∈ host.removed) :
    b ∈ t.pool.stock + t.loose ∧ b ∉ t.missing := by
  rcases job.removed_le hhost with hle | ⟨id, slot, link, cause, rfl, hremoved⟩
  · have hloose : b ∈ t.loose := Table.mem_tally.2 ⟨n, job, hjob, Multiset.mem_of_le hle hb⟩
    exact ⟨Multiset.mem_add.2 (.inr hloose), fun hmiss => ht.notMem_loose hmiss hloose⟩
  · rw [hremoved] at hb
    obtain rfl := Multiset.mem_singleton.1 hb
    have hfind : t.pool.slots.find? slot = some ⟨id, link, [], .empty, false⟩ := ht.fits n _ hjob
    refine ⟨Multiset.mem_add.2 (.inl ?_), fun hmiss => ?_⟩
    · exact Table.mem_tally.2 ⟨slot, _, hfind, Pool.createLink_mem_kept.2 ⟨rfl, rfl⟩⟩
    · obtain ⟨m, id', slot', link', phase, hjob', heq, hphase, hfind'⟩ := ht.of_mem_missing hmiss
      obtain rfl : link = link' := HostCall.createLink.inj heq
      have hslot := ht.regular.eq_of_link_eq hfind hfind' rfl
      by_cases hm : n = m
      · -- the call itself takes the link down, so it does not miss it
        subst hm
        rw [hjob, Option.some.injEq] at hjob'
        cases hjob'
        rcases hphase with hphase | ⟨_, hphase⟩ <;> cases hphase
      · exact ht.apart n m _ _ hm hjob hjob' hslot

end Orderly

/-! ### What stands on the host -/

/-- The links and rules that stand on the host are those on the books that are not
    missing. -/
theorem live_add_missing {t : Traffic} (ht : t.Balanced)
    (hlive : (t.live : Multiset HostCall) + t.removed = t.built) :
    (t.live : Multiset HostCall) + t.missing = t.pool.stock + t.loose := by
  have hbalance : t.built + t.missing = t.removed + t.pool.stock + t.loose := ht
  rw [← hlive, add_right_comm, add_assoc t.removed, add_comm t.removed] at hbalance
  exact add_right_cancel hbalance

/-- As long as the host takes down whatever it is asked to, what stands there is what was
    built and not taken down. -/
theorem Reachable.live_add_removed {c : NetworkConfig} {ownerBase : Option Nat} {t : Traffic}
    (h : Reachable c ownerBase t) (hdel : t.DeletionsSucceed) :
    (t.live : Multiset HostCall) + t.removed = t.built := by
  induction h with
  | start => rfl
  | @step t u e h hstep ih =>
    have hturn := turn_of_step hstep
    cases hturn with
    | begin | settle =>
      rw [DeletionsSucceed, log_setProgress] at hdel
      rw [live, removed, built, log_setProgress]
      exact ih hdel
    | @answer n job host result hjob hhost =>
      rw [DeletionsSucceed, log_setProgress] at hdel
      rw [live, removed, built, log_setProgress]
      have hlive := ih fun e he => hdel e (List.mem_cons_of_mem _ he)
      change ((if result.isOk then host.applyTo t.live else t.live : List HostCall) :
        Multiset HostCall) + (host.removed + t.removed) =
          (if result.isOk then host.built else 0) + t.built
      cases hdeletion : host.isDeletion with
      | true =>
        have hok : result.isOk := hdel (host, result) List.mem_cons_self hdeletion
        obtain ⟨hbuilt, b, hremoved, happly⟩ := HostCall.eq_erase_of_isDeletion hdeletion
        -- what is taken down stands on the host, since it is on the books
        have hmem : b ∈ t.live := by
          obtain ⟨hbooks, hnot⟩ := h.orderly.of_mem_removed hjob hhost
            (hremoved ▸ Multiset.mem_singleton_self b)
          rw [← live_add_missing h.balanced hlive] at hbooks
          exact Multiset.mem_coe.1 ((Multiset.mem_add.1 hbooks).resolve_right hnot)
        have herase : (t.live.erase b : Multiset HostCall) + {b} = t.live := by
          rw [← Multiset.coe_erase, add_comm]
          exact Multiset.cons_erase (Multiset.mem_coe.2 hmem)
        rw [if_pos hok, if_pos hok, happly, hbuilt, hremoved, zero_add, ← hlive, ← add_assoc,
          herase]
      | false =>
        obtain ⟨hremoved, hbuilt, happly⟩ := HostCall.eq_append_of_not_isDeletion hdeletion
        rw [hremoved, zero_add, ← hlive]
        split
        · rw [happly, hbuilt, ← Multiset.coe_add, add_right_comm, add_comm]
          rfl
        · rw [zero_add]

section Live

variable {c : NetworkConfig} {ownerBase : Option Nat} {t : Traffic}

/-- A link that stands on the host is that of a slot. -/
theorem find?_of_live (h : Reachable c ownerBase t) (hdel : t.DeletionsSucceed)
    {link : GuestLink} (hlive : .createLink link ∈ t.live) :
    ∃ s g, t.pool.slots.find? s = some g ∧ g.link = link := by
  have hmem : .createLink link ∈ t.pool.stock + t.loose := by
    rw [← live_add_missing h.balanced (h.live_add_removed hdel)]
    exact Multiset.mem_add.2 (.inl (Multiset.mem_coe.2 hlive))
  rcases Multiset.mem_add.1 hmem with hstock | hloose
  · obtain ⟨s, g, hfind, hkept⟩ := Table.mem_tally.1 hstock
    exact ⟨s, g, hfind, (Pool.createLink_mem_kept.1 hkept).2⟩
  · obtain ⟨s, g, hfind, hlink, -⟩ := h.orderly.of_mem_loose hloose
    exact ⟨s, g, hfind, hlink⟩

/-- A link that a call has not built yet, or has taken down again, does not stand on the
    host. -/
theorem notMem_live_of_mem_missing (h : Reachable c ownerBase t) (hdel : t.DeletionsSucceed)
    {b : HostCall} (hmiss : b ∈ t.missing) : b ∉ t.live := fun hlive => by
  obtain ⟨n, id, slot, link, phase, -, rfl, -, hfind⟩ := h.orderly.of_mem_missing hmiss
  -- the books show the link once, and there it is missing
  have hcount := congrArg (Multiset.count (.createLink link))
    (live_add_missing h.balanced (h.live_add_removed hdel))
  rw [Multiset.count_add, Multiset.count_add,
    h.orderly.regular.count_createLink_stock hfind rfl,
    Multiset.count_eq_zero.2 (h.orderly.notMem_loose hmiss)] at hcount
  have hone := Multiset.count_pos.2 (Multiset.mem_coe.2 hlive)
  have hmine := Multiset.count_pos.2 hmiss
  omega

/-- At every moment: the slots are those of the subnet, their links have no name and no
    address in common, and the names fit. As long as the host takes down whatever it is
    asked to, the links that stand there are those of slots that are held for their
    instance, so no link is built with a name or address that is in use. A port of the host
    is published for the one slot that has it among its ports. -/
theorem slots_links_ports (h : Reachable c ownerBase t) (hdel : t.DeletionsSucceed) :
    (∀ s g, t.pool.slots.find? s = some g → s < c.slotCount ∧ g.link.devices.Nodup ∧
      ∀ name ∈ g.link.devices, name.utf8ByteSize ≤ 15) ∧
    (∀ s s' g g', s ≠ s' → t.pool.slots.find? s = some g → t.pool.slots.find? s' = some g' →
      g.link.Disjoint g'.link) ∧
    (∀ link, .createLink link ∈ t.live → ∃ s g, t.pool.slots.find? s = some g ∧
      g.link = link ∧ link = Pool.linkFor c ownerBase g.holder s) ∧
    (∀ n job link link', t.jobs.find? n = some job → job.hostCall? = some (.createLink link) →
      .createLink link' ∈ t.live → link.Disjoint link') ∧
    (∀ q s, t.pool.hostPorts.find? q = some s ↔
      ∃ g, t.pool.slots.find? s = some g ∧ (g.ports.find? q).isSome) ∧
    ∀ q s s' g g', t.pool.slots.find? s = some g → t.pool.slots.find? s' = some g' →
      (g.ports.find? q).isSome → (g'.ports.find? q).isSome → s = s' := by
  obtain ⟨hconfig, howner⟩ := h.config
  have hregular : t.pool.Regular c ownerBase := hconfig ▸ howner ▸ h.orderly.regular
  refine ⟨fun s g hfind => ?_, fun s s' g g' hne hfind hfind' => ?_, fun link hlive => ?_,
    fun n job link link' hjob hhost hlive => ?_, hregular.ports,
    fun q s s' g g' hfind hfind' hq hq' => ?_⟩
  · rw [hregular.link s g hfind]
    exact ⟨hregular.within s (by simp [hfind]), GuestLink.nodup_devices,
      fun name => GuestLink.utf8ByteSize_le_of_mem_devices⟩
  · exact hregular.disjoint hne hfind hfind'
  · obtain ⟨s, g, hfind, rfl⟩ := find?_of_live h hdel hlive
    exact ⟨s, g, hfind, rfl, hregular.link s g hfind⟩
  · -- the link is missing, so it is not the one that stands on the host
    obtain ⟨s', g', hfind', rfl⟩ := find?_of_live h hdel hlive
    obtain ⟨id, slot, rfl⟩ := Job.eq_lease_of_createLink hhost
    have hfind := h.orderly.fits n _ hjob
    have hmiss : .createLink link ∈ t.missing :=
      Table.mem_tally.2 ⟨n, _, hjob, Multiset.mem_singleton_self _⟩
    refine hregular.disjoint (g := ⟨id, link, [], .empty, false⟩) (fun hs => ?_) hfind hfind'
    subst hs
    rw [show t.pool.slots.find? slot = _ from hfind, Option.some.injEq] at hfind'
    subst hfind'
    exact notMem_live_of_mem_missing h hdel hmiss hlive
  · have hmine := (hregular.isSome_find?_ports hfind q).1 hq
    have hmine' := (hregular.isSome_find?_ports hfind' q).1 hq'
    exact Option.some.inj (hmine.symm.trans hmine')

end Live

/-- A second instance leases a slot, and the first has not all of its rules yet. -/
def secondLease : List Event :=
  [.begin (.lease "i-1"), .answer 0 (.ok ()), .answer 0 (.ok ()), .begin (.lease "i-2")]

/-- The link that the second instance is about to get has nothing in common with the one
    that stands on the host. -/
theorem disjoint_secondLease : ∃ t, (start {} none).play secondLease = some t ∧
    (t.DeletionsSucceed ∧ t.live ≠ []) ∧ ∀ link, .createLink link ∈ t.live →
      (Pool.linkFor {} none "i-2" 1).Disjoint link := by
  let t := ((start {} none).play secondLease).get (by decide +kernel)
  have hplay : (start {} none).play secondLease = some t := (Option.some_get _).symm
  have hdel : t.DeletionsSucceed := by decide +kernel
  have hlive : t.live ≠ [] := by decide +kernel
  have hjob : t.jobs.find? 1 =
      some (.lease "i-2" 1 (Pool.linkFor {} none "i-2" 1) .create) := by decide +kernel
  obtain ⟨-, -, -, hbuild, -⟩ := slots_links_ports (Reachable.start.play hplay) hdel
  exact ⟨t, hplay, ⟨hdel, hlive⟩, fun link hlink => hbuild 1 _ _ link hjob rfl hlink⟩

end Traffic

end VmNode
