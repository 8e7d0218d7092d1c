import VmNode.Proofs.Network.Hold

/-!
# Pools that are in order

Between any two steps the pool is in order (`Pool.Regular`): its slots are slots of the
subnet, each has the link of its instance, no two links have the same tap device, and the
two tables of published ports say the same. Calls in progress need this, and they need
what they have made of the pool themselves to be still there (`Job.Fits`): the slot that a
call sets up or gives back is as the call left it, and a port that it publishes is
reserved as long as the slot is held.

Every step on the pool leaves it in order (`Call.Begins.regular`, `Job.Settles.regular`).
-/

namespace VmNode

/-- A pool that is in order. -/
structure Pool.Regular (c : NetworkConfig) (ownerBase : Option Nat) (p : Pool) : Prop where
  /-- The slots are slots of the subnet. -/
  within : p.Within c
  /-- Each slot has the link of its instance. -/
  link : ∀ s g, p.slots.find? s = some g → g.link = Pool.linkFor c ownerBase g.holder s
  /-- No two slots have the same tap device. -/
  tap : ∀ s s' g g', s ≠ s' → p.slots.find? s = some g → p.slots.find? s' = some g' →
    g.link.tap ≠ g'.link.tap
  /-- A port of the host is published for a slot that has it among its ports. -/
  ports : ∀ q s, p.hostPorts.find? q = some s ↔
    ∃ g, p.slots.find? s = some g ∧ (g.ports.find? q).isSome

namespace Pool.Regular

variable {c : NetworkConfig} {ownerBase : Option Nat} {p : Pool} {s : Nat} {g g' : Holding}
variable {ports : Table UInt16 Nat}

/-- A pool without slots is in order. -/
theorem empty (c : NetworkConfig) (ownerBase : Option Nat) : Regular c ownerBase .empty where
  within := fun s h => by simp [Pool.empty] at h
  link := fun s g h => by simp [Pool.empty] at h
  tap := fun s s' g g' _ h => by simp [Pool.empty] at h
  ports := by simp [Pool.empty]

/-- The ports of a slot are those that are published for it. -/
theorem isSome_find?_ports (hp : p.Regular c ownerBase) (hfind : p.slots.find? s = some g)
    (q : UInt16) : (g.ports.find? q).isSome ↔ p.hostPorts.find? q = some s := by
  rw [hp.ports q s]
  simp [hfind]

/-- The port is published for no slot, so it is among the ports of none. -/
theorem find?_ports_eq_none (hp : p.Regular c ownerBase) {q : UInt16}
    (hq : p.hostPorts.find? q = none) (hfind : p.slots.find? s = some g) :
    g.ports.find? q = none := by
  rw [← Option.not_isSome_iff_eq_none, hp.isSome_find?_ports hfind, hq]
  simp

/-- The links of two slots have no name and no address in common. -/
theorem disjoint (hp : p.Regular c ownerBase) {s' : Nat} (hne : s ≠ s')
    (hfind : p.slots.find? s = some g) (hfind' : p.slots.find? s' = some g') :
    g.link.Disjoint g'.link := by
  have htap := hp.tap s s' g g' hne hfind hfind'
  have hs := hp.within s (by simp [hfind])
  have hs' := hp.within s' (by simp [hfind'])
  rw [hp.link s g hfind, hp.link s' g' hfind'] at htap ⊢
  exact ⟨NetworkConfig.notMem_addresses hs hs' hne rfl rfl rfl rfl,
    fun h => htap (GuestLink.tap_eq_iff.2 (GuestLink.netns_eq_iff.1 h)),
    GuestLink.notMem_devices htap⟩

/-- A slot is given to an instance, with the link that goes with the two and a tap device that no
    other slot has, and the two tables of ports change alike. -/
theorem insert (hp : p.Regular c ownerBase) (hlt : s < c.slotCount)
    (hlink : g.link = Pool.linkFor c ownerBase g.holder s)
    (htap : ∀ s' h, s' ≠ s → p.slots.find? s' = some h → g.link.tap ≠ h.link.tap)
    (hmine : ∀ q, ports.find? q = some s ↔ (g.ports.find? q).isSome)
    (hrest : ∀ q s', s' ≠ s → (ports.find? q = some s' ↔ p.hostPorts.find? q = some s')) :
    Regular c ownerBase ⟨p.slots.insert s g, ports⟩ where
  within := hp.within.insert hlt
  link := fun s' h hh => by
    by_cases hs : s' = s
    · subst hs
      rw [Table.find?_insert_self, Option.some.injEq] at hh
      exact hh ▸ hlink
    · rw [Table.find?_insert_of_ne _ _ hs] at hh
      exact hp.link s' h hh
  tap := fun s₁ s₂ g₁ g₂ hne h₁ h₂ => by
    -- the slot is one of the two, or neither
    by_cases hs₁ : s₁ = s
    · subst hs₁
      rw [Table.find?_insert_self, Option.some.injEq] at h₁
      rw [Table.find?_insert_of_ne _ _ hne.symm] at h₂
      exact h₁ ▸ htap s₂ g₂ hne.symm h₂
    · rw [Table.find?_insert_of_ne _ _ hs₁] at h₁
      by_cases hs₂ : s₂ = s
      · subst hs₂
        rw [Table.find?_insert_self, Option.some.injEq] at h₂
        exact h₂ ▸ (htap s₁ g₁ hne h₁).symm
      · rw [Table.find?_insert_of_ne _ _ hs₂] at h₂
        exact hp.tap _ _ g₁ g₂ hne h₁ h₂
  ports := fun q s' => by
    by_cases hs : s' = s
    · subst hs
      rw [hmine]
      simp
    · rw [hrest q s' hs, Table.find?_insert_of_ne _ _ hs]
      exact hp.ports q s'

/-- A slot stays with its instance and its link, and the two tables of ports change
    alike. -/
theorem replace (hp : p.Regular c ownerBase) (hfind : p.slots.find? s = some g)
    (hholder : g'.holder = g.holder) (hlink : g'.link = g.link)
    (hmine : ∀ q, ports.find? q = some s ↔ (g'.ports.find? q).isSome)
    (hrest : ∀ q s', s' ≠ s → (ports.find? q = some s' ↔ p.hostPorts.find? q = some s')) :
    Regular c ownerBase ⟨p.slots.insert s g', ports⟩ := by
  refine hp.insert (hp.within s (by simp [hfind])) ?_ (fun s' h hne hh => ?_) hmine hrest
  · rw [hlink, hholder]
    exact hp.link s g hfind
  · rw [hlink]
    exact hp.tap s s' g h hne.symm hfind hh

/-- A slot stays with its instance, its link and its ports. -/
theorem replace_of_ports (hp : p.Regular c ownerBase) (hfind : p.slots.find? s = some g)
    (hholder : g'.holder = g.holder) (hlink : g'.link = g.link)
    (hports : ∀ q, (g'.ports.find? q).isSome = (g.ports.find? q).isSome) :
    Regular c ownerBase ⟨p.slots.insert s g', p.hostPorts⟩ :=
  hp.replace hfind hholder hlink (fun q => by rw [hports, hp.isSome_find?_ports hfind])
    fun _ _ _ => Iff.rfl

/-- A slot is freed, with its ports. -/
theorem erase (hp : p.Regular c ownerBase)
    (hports : ∀ q s', ports.find? q = some s' ↔ s' ≠ s ∧ p.hostPorts.find? q = some s') :
    Regular c ownerBase ⟨p.slots.erase s, ports⟩ := by
  have hold : ∀ s' h, (p.slots.erase s).find? s' = some h → p.slots.find? s' = some h :=
    fun s' h hh => by
      by_cases hs : s' = s
      · simp [hs] at hh
      · rwa [Table.find?_erase_of_ne _ hs] at hh
  refine ⟨hp.within.erase, fun s' h hh => hp.link s' h (hold s' h hh),
    fun s₁ s₂ g₁ g₂ hne h₁ h₂ => hp.tap _ _ _ _ hne (hold _ _ h₁) (hold _ _ h₂), fun q s' => ?_⟩
  rw [hports]
  by_cases hs : s' = s
  · simp [hs]
  · rw [Table.find?_erase_of_ne _ hs, hp.ports q s']
    simp [hs]

/-- A free slot is taken by an instance whose tap device nobody uses. -/
theorem take (hp : p.Regular c ownerBase) {id : InstanceId}
    (htap : p.usesTap (GuestLink.tapOf id) = false) (hnone : p.slots.find? s = none)
    (hlt : s < c.slotCount) :
    Regular c ownerBase { p with
      slots := p.slots.insert s ⟨id, linkFor c ownerBase id s, [], .empty, false⟩ } := by
  refine hp.insert hlt rfl (fun s' h _ hh => (tap_ne_of_usesTap_eq_false htap hh).symm)
    (fun q => ?_) fun _ _ _ => Iff.rfl
  -- no port is published for a slot that is free
  rw [hp.ports q s]
  simp [hnone]

end Pool.Regular

/-! ### What a call relies on -/

namespace Job

/-- What a call in progress relies on. A port whose slot was given back meanwhile relies on
    nothing. -/
def Fits (p : Pool) : Job → Prop
  | .lease id slot link _ => p.slots.find? slot = some ⟨id, link, [], .empty, false⟩
  | .release l link _ =>
    ∃ g, p.slots.find? l.slot = some g ∧ g.holder = l.holder ∧ g.link = link ∧ g.releasing = true
  | .publish _ _ _ (.orphan ..) => True
  | .publish id n m _ => ∀ g, p.slots.find? n.slot.toNat = some g → g.holder = id →
    g.ports.find? m.hostPort = some ⟨m.guestPort, []⟩

end Job

/-! ### Steps -/

variable {c : NetworkConfig} {ownerBase : Option Nat} {p p' : Pool} {progress : Progress}

/-- The first step of a call leaves the pool in order. -/
theorem Call.Begins.regular {call : Call} (h : call.Begins c ownerBase p p' progress)
    (hp : p.Regular c ownerBase) : p'.Regular c ownerBase := by
  cases h with
  | refused | known => exact hp
  | lease htap hnone hlt hlink => exact hlink ▸ hp.take htap hnone hlt
  | release hfind hholder hfree => exact hp.replace_of_ports hfind rfl rfl fun _ => rfl
  | @publish id n m g hport hfind hholder hfree =>
    -- the port goes into both tables
    refine hp.replace hfind rfl rfl (fun q => ?_) fun q s' hs => ?_ <;>
      by_cases hq : q = m.hostPort
    · subst hq
      simp
    · rw [Table.find?_insert_of_ne _ _ hq, Table.find?_insert_of_ne _ _ hq,
        hp.isSome_find?_ports hfind]
    · subst hq
      rw [Table.find?_insert_self, hport]
      simp [hs.symm]
    · rw [Table.find?_insert_of_ne _ _ hq]

/-- So does every later step, as long as the call finds what it relies on. -/
theorem Job.Settles.regular {job : Job} (h : job.Settles p p' progress) (hjob : job.Fits p)
    (hp : p.Regular c ownerBase) : p'.Regular c ownerBase := by
  cases h with
  | @leased id slot link rules =>
    rw [Pool.record, Table.modify, show p.slots.find? slot = _ from hjob]
    exact hp.replace_of_ports hjob rfl rfl fun _ => rfl
  | @unleased id slot link cause =>
    -- a slot that is still being set up has no ports
    refine hp.erase fun q s' => ⟨fun hq => ⟨fun hs => ?_, hq⟩, fun hq => hq.2⟩
    subst hs
    obtain ⟨g, hfind, hsome⟩ := (hp.ports q s').1 hq
    rw [show p.slots.find? s' = _ from hjob, Option.some.injEq] at hfind
    subst hfind
    simp at hsome
  | @released l link =>
    -- the ports of the slot go with it
    refine hp.erase fun q s' => ?_
    rw [Table.find?_filter, Option.filter_eq_some_iff]
    simp [and_comm]
  | @published id n m rules g port hfind hholder hfree hport =>
    refine hp.replace_of_ports hfind rfl rfl fun q => ?_
    by_cases hq : q = m.hostPort
    · subst hq
      rw [Table.find?_insert_self, hport]
      rfl
    · rw [Table.find?_insert_of_ne _ _ hq]
  | orphaned | forgotten => exact hp
  | @unpublished id n m cause g hfind hholder =>
    -- the two tables lose the reservation together
    have hmine := (hp.ports m.hostPort n.slot.toNat).2 ⟨g, hfind, by rw [hjob g hfind hholder]; rfl⟩
    refine hp.replace hfind rfl rfl (fun q => ?_) fun q s' hs => ?_ <;>
      by_cases hq : q = m.hostPort
    · subst hq
      simp
    · rw [Table.find?_erase_of_ne _ hq, Table.find?_erase_of_ne _ hq, hp.isSome_find?_ports hfind]
    · subst hq
      rw [Table.find?_erase_self, hmine]
      simp [hs.symm]
    · rw [Table.find?_erase_of_ne _ hq]

end VmNode
