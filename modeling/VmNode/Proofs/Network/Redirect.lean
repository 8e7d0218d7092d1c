import VmNode.Proofs.Network.Publish

/-!
# Redirections that are live

A rule that redirects a port of the host is on the books of the slot that it leads to: the
pool has it recorded, or a call that gives the slot back has still to remove it, or the call
that publishes the port has just installed it. At any moment the slot has the port in one of
these places only (`Traffic.countP_settled_le_one`), so no port of the host leads to two
guests, and none to the guest of an instance that did not publish it.

The one exception is a call that was overtaken (`Job.isOvertaken`): the slot was given back,
and is free or held by somebody else, while the rules of the port went in. The call removes
its rules before it answers, but until then they are live, and lead to whoever holds the slot
now (`Traffic.redirect_of_overtaken`). What is live apart from these rules leads where it
should (`Traffic.live_redirects`).
-/

namespace VmNode

/-! ### Redirections -/

/-- The port of the host that a rule redirects, and the guest that it leads to. -/
def HostCall.redirect? : HostCall → Option (UInt16 × Ipv4)
  | .appendRule (.redirect _ q guest _) => some (q, guest)
  | _ => none

/-- Whether a rule redirects that port of the host. -/
def HostCall.redirects (q : UInt16) (b : HostCall) : Bool := b.redirect?.any (·.1 = q)

namespace HostCall

variable {q : UInt16} {b : HostCall}

theorem redirects_eq_true : b.redirects q = true ↔ ∃ guest, b.redirect? = some (q, guest) := by
  simp [redirects, Option.any_eq_true]

/-- The rules that go with a link redirect nothing. -/
theorem redirect?_of_leaseRules {c : NetworkConfig} {link : GuestLink} {l : List FirewallRule}
    (hl : l ⊆ Job.leaseRules c link) (hb : b ∈ rules l) : b.redirect? = none := by
  obtain ⟨r, hr, rfl⟩ := List.mem_map.1 (Multiset.mem_coe.1 hb)
  have hmem := hl hr
  simp only [Job.leaseRules, List.mem_cons, List.not_mem_nil, or_false] at hmem
  rcases hmem with rfl | rfl | rfl <;> rfl

/-- Of the rules of a port, one redirects it to the guest of the link. -/
theorem redirect?_of_portRules {c : NetworkConfig} {link : GuestLink} {m : PortMapping}
    {x : UInt16 × Ipv4} (hb : b ∈ rules (link.portRules c m)) (hx : b.redirect? = some x) :
    x = (m.hostPort, link.guest) := by
  obtain ⟨r, hr, rfl⟩ := List.mem_map.1 (Multiset.mem_coe.1 hb)
  simp only [GuestLink.portRules, List.mem_cons, List.not_mem_nil, or_false] at hr
  rcases hr with rfl | rfl
  · exact (Option.some.inj hx).symm
  · cases hx

theorem countP_redirects_portRules (c : NetworkConfig) (link : GuestLink) (m : PortMapping)
    (q : UInt16) :
    (rules (link.portRules c m)).countP (redirects q ·) = if m.hostPort = q then 1 else 0 := by
  simp [rules, GuestLink.portRules, List.countP_cons, redirects, redirect?]

end HostCall

/-! ### The books of a slot -/

namespace Holding.Wired

variable {c : NetworkConfig} {g : Holding} {q : UInt16}

/-- A redirection on the books of a slot is that of a port of the slot which has its rules, and
    leads to the guest of the slot. -/
theorem port_of_mem_stock (h : g.Wired c) {b : HostCall} {guest : Ipv4} (hb : b ∈ g.stock)
    (hq : b.redirect? = some (q, guest)) :
    guest = g.link.guest ∧ ∃ port, g.ports.find? q = some port ∧ port.rules ≠ [] := by
  rw [Holding.stock_eq, Multiset.mem_add, Multiset.mem_add] at hb
  rcases hb with (hlink | hlease) | hports
  · rw [Multiset.mem_singleton.1 hlink] at hq
    cases hq
  · rw [HostCall.redirect?_of_leaseRules h.lease hlease] at hq
    cases hq
  · obtain ⟨q', port, hport, hmem⟩ := Table.mem_tally.1 hports
    rcases h.ports q' port hport with hnone | hall
    · simp [hnone] at hmem
    · rw [hall] at hmem
      obtain ⟨rfl, rfl⟩ := Prod.mk.inj (HostCall.redirect?_of_portRules hmem hq)
      exact ⟨rfl, port, hport, hall ▸ GuestLink.portRules_ne_nil _ _ _⟩

/-- The books of a slot have one redirection of a port at most. -/
theorem countP_stock_le_one (h : g.Wired c) (q : UInt16) :
    g.stock.countP (HostCall.redirects q ·) ≤ 1 := by
  have hlink : Multiset.countP (HostCall.redirects q ·) {.createLink g.link} = 0 :=
    Multiset.countP_eq_zero.2 fun b hb => by
      rw [Multiset.mem_singleton.1 hb]
      simp [HostCall.redirects, HostCall.redirect?]
  have hlease : (HostCall.rules g.rules).countP (HostCall.redirects q ·) = 0 :=
    Multiset.countP_eq_zero.2 fun b hb => by
      simp [HostCall.redirects, HostCall.redirect?_of_leaseRules h.lease hb]
  -- each port has its redirection once, and a port of the host is there once
  have hport : ∀ q' port, g.ports.find? q' = some port →
      (HostCall.rules port.rules).countP (HostCall.redirects q ·) ≤ if q' = q then 1 else 0 :=
    fun q' port hport => by
      rcases h.ports q' port hport with hnone | hall
      · simp [hnone]
      · rw [hall, HostCall.countP_redirects_portRules]
  have hports : (g.ports.tally fun _ port => HostCall.rules port.rules).countP
      (HostCall.redirects q ·) ≤ 1 := by
    have hcount := Table.map_tally (Multiset.countPAddMonoidHom (HostCall.redirects q ·)) g.ports
      fun _ port => HostCall.rules port.rules
    rw [Multiset.coe_countPAddMonoidHom] at hcount
    rw [hcount]
    refine Table.tally_le_one (fun q' port hfind => (hport q' port hfind).trans ?_)
      fun q₁ q₂ port₁ port₂ hne h₁ h₂ => ?_
    · split <;> simp
    · have hle₁ := hport q₁ port₁ h₁
      have hle₂ := hport q₂ port₂ h₂
      by_cases hq : q₁ = q
      · rw [if_neg fun h => hne (hq.trans h.symm)] at hle₂
        exact .inr (Nat.le_zero.1 hle₂)
      · rw [if_neg hq] at hle₁
        exact .inl (Nat.le_zero.1 hle₁)
  rw [Holding.stock_eq, Multiset.countP_add, Multiset.countP_add, hlink, hlease, Nat.zero_add]
  exact hports

end Holding.Wired

/-! ### The books of a call -/

namespace Job

/-- Whether a call publishes a port for an instance that does not hold the slot any more. -/
def isOvertaken (p : Pool) : Job → Bool
  | .publish id n _ _ => (p.heldBy? n.slot.toNat id).isNone
  | .lease .. | .release .. => false

/-- What stands on the host for a call that was not overtaken. -/
def settled (p : Pool) (job : Job) : Multiset HostCall := if job.isOvertaken p then 0 else job.loose

/-- What stands on the host for a call that was overtaken. -/
def overtaken (p : Pool) (job : Job) : Multiset HostCall :=
  if job.isOvertaken p then job.loose else 0

/-- A call has the redirection of a port of that slot on its books: it gives the slot back, or
    has the port reserved. -/
def Leads (q : UInt16) (s : Nat) (g : Holding) : Job → Prop
  | .lease .. => False
  | .release l _ _ => l.slot = s ∧ g.releasing = true ∧
    ∃ port, g.ports.find? q = some port ∧ port.rules ≠ []
  | .publish id n m _ => n.slot.toNat = s ∧ g.holder = id ∧ m.hostPort = q ∧
    g.ports.find? q = some ⟨m.guestPort, []⟩

theorem Leads.isSome {q : UInt16} {s : Nat} {g : Holding} {job : Job} (h : job.Leads q s g) :
    (g.ports.find? q).isSome = true := by
  cases job with
  | lease => exact h.elim
  | release =>
    obtain ⟨-, -, port, hport, -⟩ := h
    simp [hport]
  | publish =>
    obtain ⟨-, -, -, hport⟩ := h
    simp [hport]

/-- A port that has its rules, in a slot that is not being given back, is up to no call. -/
theorem Leads.not_kept {q : UInt16} {s : Nat} {g : Holding} {job : Job} (h : job.Leads q s g)
    (hfree : g.releasing = false) {port : PublishedPort} (hport : g.ports.find? q = some port)
    (hrules : port.rules ≠ []) : False := by
  cases job with
  | lease => exact h
  | release => exact Bool.false_ne_true (hfree.symm.trans h.2.1)
  | publish =>
    rw [h.2.2.2, Option.some.injEq] at hport
    exact hrules (hport ▸ rfl)

/-- Two calls that rely on different things do not both have the redirection of a port. -/
theorem Leads.not_apart {q : UInt16} {s : Nat} {g : Holding} {a b : Job} (ha : a.Leads q s g)
    (hb : b.Leads q s g) (hapart : a.reserving.Apart b.reserving) : False := by
  cases a with
  | lease => exact ha
  | release l link phase =>
    obtain ⟨hslot, -, port, hport, hrules⟩ := ha
    cases b with
    | lease => exact hb
    | release => exact hapart (hslot.trans hb.1.symm)
    | publish =>
      rw [hb.2.2.2, Option.some.injEq] at hport
      exact hrules (hport ▸ rfl)
  | publish id n m phase =>
    obtain ⟨hslot, hholder, hq, hport⟩ := ha
    cases b with
    | lease => exact hb
    | release =>
      obtain ⟨-, -, port, hport', hrules⟩ := hb
      rw [hport, Option.some.injEq] at hport'
      exact hrules (hport' ▸ rfl)
    | publish =>
      obtain ⟨hslot', hholder', hq', -⟩ := hb
      exact hapart (hslot.trans hslot'.symm) (hholder.symm.trans hholder') (hq.trans hq'.symm)

variable {c : NetworkConfig} {ownerBase : Option Nat} {p : Pool} {job : Job} {q : UInt16}

/-- A lease installs no redirection. -/
theorem Wired.redirect?_of_lease {id : InstanceId} {slot : Nat} {link : GuestLink}
    {phase : LeasePhase} (h : (Job.lease id slot link phase).Wired c ownerBase p) {b : HostCall}
    (hb : b ∈ (Job.lease id slot link phase).loose) : b.redirect? = none := by
  have hrules : ∀ l, b ∈ HostCall.rules l → l ⊆ phase.rules → b.redirect? = none :=
    fun l hmem hl => HostCall.redirect?_of_leaseRules (fun r hr => h (hl hr)) hmem
  cases phase with
  | install done rule rest => exact hrules done hb (List.subset_append_left _ _)
  | record rules => exact hrules rules hb (List.Subset.refl _)
  | undo rule rest cause => exact hrules _ hb (List.Subset.refl _)
  | create | unlink | abandon => simp [loose, LeasePhase.loose] at hb

/-- A redirection on the books of a call that was not overtaken leads to the guest of a slot
    that has the port. -/
theorem Wired.leads (h : job.Wired c ownerBase p) (hfits : job.Fits p)
    (hreserved : job.reserving.Fits p) (hreg : p.Regular c ownerBase)
    (hslots : ∀ s g, p.slots.find? s = some g → g.Wired c) {b : HostCall} {guest : Ipv4}
    (hb : b ∈ job.settled p) (hq : b.redirect? = some (q, guest)) :
    ∃ s g, p.slots.find? s = some g ∧ guest = g.link.guest ∧ job.Leads q s g := by
  rw [settled] at hb
  split at hb
  · simp at hb
  · rename_i hheld
    cases job with
    | lease id slot link phase =>
      rw [h.redirect?_of_lease hb] at hq
      cases hq
    | release l link phase =>
      -- what the call is to remove is on the books of the slot
      obtain ⟨g, hfind, -, -, hleaving⟩ := hfits
      obtain ⟨hguest, hport⟩ := (hslots _ g hfind).port_of_mem_stock
        (Multiset.mem_of_le (h g hfind) hb) hq
      exact ⟨l.slot, g, hfind, hguest, rfl, hleaving, hport⟩
    | publish id n m phase =>
      -- the slot is still that of the instance, and has the port reserved
      obtain ⟨g, hg⟩ : ∃ g, p.heldBy? n.slot.toNat id = some g :=
        Option.ne_none_iff_exists'.1 (by simpa [isOvertaken] using hheld)
      obtain ⟨hfind, hholder⟩ := Pool.heldBy?_eq_some.1 hg
      have hall := h.2
      rw [← hholder, ← hreg.link _ g hfind] at hall
      obtain ⟨rfl, rfl⟩ := Prod.mk.inj
        (HostCall.redirect?_of_portRules (Multiset.mem_of_le hall.loose_le hb) hq)
      exact ⟨n.slot.toNat, g, hfind, rfl, rfl, hholder, rfl, hreserved g hfind hholder⟩

/-- A call that was not overtaken has one redirection of a port at most. -/
theorem Wired.countP_settled_le_one (h : job.Wired c ownerBase p) (hfits : job.Fits p)
    (hslots : ∀ s g, p.slots.find? s = some g → g.Wired c) (q : UInt16) :
    (job.settled p).countP (HostCall.redirects q ·) ≤ 1 := by
  rw [settled]
  split
  · simp
  · cases job with
    | lease id slot link phase =>
      rw [Multiset.countP_eq_zero.2 fun b hb => by
        simp [HostCall.redirects, h.redirect?_of_lease hb]]
      exact Nat.zero_le 1
    | release l link phase =>
      obtain ⟨g, hfind, -⟩ := hfits
      exact (Multiset.countP_le_of_le _ (h g hfind)).trans
        ((hslots _ g hfind).countP_stock_le_one q)
    | publish id n m phase =>
      refine (Multiset.countP_le_of_le _ h.2.loose_le).trans ?_
      rw [HostCall.countP_redirects_portRules]
      split <;> simp

end Job

/-! ### All books together -/

/-- Slots that have the same port are the same. -/
theorem Pool.Regular.eq_of_port {c : NetworkConfig} {ownerBase : Option Nat} {p : Pool}
    (hp : p.Regular c ownerBase) {q : UInt16} {s s' : Nat} {g g' : Holding}
    (hfind : p.slots.find? s = some g) (hfind' : p.slots.find? s' = some g')
    (hq : (g.ports.find? q).isSome) (hq' : (g'.ports.find? q).isSome) : s = s' :=
  Option.some.inj (((hp.isSome_find?_ports hfind q).1 hq).symm.trans
    ((hp.isSome_find?_ports hfind' q).1 hq'))

theorem Pool.countP_stock (p : Pool) (q : UInt16) : p.stock.countP (HostCall.redirects q ·) =
    p.slots.tally fun _ g => g.kept.countP (HostCall.redirects q ·) :=
  Table.map_tally (Multiset.countPAddMonoidHom (HostCall.redirects q ·)) p.slots fun _ g => g.kept

namespace Traffic

/-- What stands on the host, apart from the rules of calls that were overtaken. -/
def settled (t : Traffic) : Multiset HostCall :=
  t.pool.stock + t.jobs.tally fun _ job => job.settled t.pool

/-- The rules of calls that were overtaken: they are still live, and their slot is not held by
    their instance any more. -/
def overtaken (t : Traffic) : Multiset HostCall := t.jobs.tally fun _ job => job.overtaken t.pool

section Settled

variable {c : NetworkConfig} {ownerBase : Option Nat} {t : Traffic} {q : UInt16}

/-- A redirection on the books of a slot that the pool keeps is that of a port which has its
    rules. -/
theorem Wired.port_of_mem_kept (ht : t.Wired) {s : Nat} {g : Holding}
    (hfind : t.pool.slots.find? s = some g) {b : HostCall} {guest : Ipv4} (hb : b ∈ g.kept)
    (hq : b.redirect? = some (q, guest)) :
    g.releasing = false ∧ guest = g.link.guest ∧
      ∃ port, g.ports.find? q = some port ∧ port.rules ≠ [] := by
  rw [Holding.kept] at hb
  split at hb
  · simp at hb
  · rename_i hfree
    exact ⟨by simpa using hfree, (ht.slots s g hfind).port_of_mem_stock hb hq⟩

/-- What counts as a redirection is one. -/
theorem exists_redirect_of_countP {l : Multiset HostCall}
    (h : l.countP (HostCall.redirects q ·) ≠ 0) :
    ∃ b ∈ l, ∃ guest, b.redirect? = some (q, guest) := by
  obtain ⟨b, hb, hq⟩ := Multiset.countP_pos.1 (Nat.pos_of_ne_zero h)
  exact ⟨b, hb, HostCall.redirects_eq_true.1 hq⟩

/-- A slot that the pool keeps with a redirection of a port is not being given back, and has
    the port with its rules. -/
theorem Wired.exists_port_of_countP_kept (ht : t.Wired) {s : Nat} {g : Holding}
    (hfind : t.pool.slots.find? s = some g) (hne : g.kept.countP (HostCall.redirects q ·) ≠ 0) :
    g.releasing = false ∧ ∃ port, g.ports.find? q = some port ∧ port.rules ≠ [] := by
  obtain ⟨b, hb, guest, hq⟩ := exists_redirect_of_countP hne
  obtain ⟨hfree, -, hport⟩ := ht.port_of_mem_kept hfind hb hq
  exact ⟨hfree, hport⟩

/-- A call that has a redirection of a port, and was not overtaken, has it on its books for a
    slot with the port. -/
theorem Reachable.exists_leads_of_countP_settled (h : Reachable c ownerBase t) {k : Nat} {job : Job}
    (hjob : t.jobs.find? k = some job)
    (hne : (job.settled t.pool).countP (HostCall.redirects q ·) ≠ 0) :
    ∃ s g, t.pool.slots.find? s = some g ∧ job.Leads q s g := by
  obtain ⟨b, hb, guest, hq⟩ := exists_redirect_of_countP hne
  obtain ⟨s, g, hfind, -, hleads⟩ := (h.wired.jobs k job hjob).leads (h.orderly.fits k job hjob)
    (h.reserved.fits k job hjob) h.orderly.regular h.wired.slots hb hq
  exact ⟨s, g, hfind, hleads⟩

theorem countP_tally_settled (t : Traffic) (q : UInt16) :
    (t.jobs.tally fun _ job => job.settled t.pool).countP (HostCall.redirects q ·) =
      t.jobs.tally fun _ job => (job.settled t.pool).countP (HostCall.redirects q ·) :=
  Table.map_tally (Multiset.countPAddMonoidHom (HostCall.redirects q ·)) t.jobs
    fun _ job => job.settled t.pool

/-- The slots together have one redirection of a port at most: one slot has the port. -/
theorem countP_pool_stock_le_one (h : Reachable c ownerBase t) (q : UInt16) :
    t.pool.stock.countP (HostCall.redirects q ·) ≤ 1 := by
  rw [Pool.countP_stock]
  refine Table.tally_le_one (fun s g hfind => ?_) fun s s' g g' hne hfind hfind' => ?_
  · rw [Holding.kept]
    split
    · simp
    · exact (h.wired.slots s g hfind).countP_stock_le_one q
  · by_contra! hboth
    obtain ⟨-, port, hport, -⟩ := h.wired.exists_port_of_countP_kept hfind hboth.1
    obtain ⟨-, port', hport', -⟩ := h.wired.exists_port_of_countP_kept hfind' hboth.2
    exact hne (h.orderly.regular.eq_of_port hfind hfind' (Option.isSome_iff_exists.2 ⟨port, hport⟩)
      (Option.isSome_iff_exists.2 ⟨port', hport'⟩))

/-- The calls that were not overtaken together have one redirection of a port at most: two calls
    do not rely on the same port. -/
theorem countP_tally_settled_le_one (h : Reachable c ownerBase t) (q : UInt16) :
    (t.jobs.tally fun _ job => job.settled t.pool).countP (HostCall.redirects q ·) ≤ 1 := by
  rw [countP_tally_settled]
  refine Table.tally_le_one (fun k job hjob => ?_) fun j k a b hne ha hb => ?_
  · exact (h.wired.jobs k job hjob).countP_settled_le_one (h.orderly.fits k job hjob)
      h.wired.slots q
  · by_contra! hboth
    obtain ⟨s, g, hfind, hleads⟩ := h.exists_leads_of_countP_settled ha hboth.1
    obtain ⟨s', g', hfind', hleads'⟩ := h.exists_leads_of_countP_settled hb hboth.2
    obtain rfl := h.orderly.regular.eq_of_port hfind hfind' hleads.isSome hleads'.isSome
    obtain rfl := Option.some.inj (hfind.symm.trans hfind')
    exact hleads.not_apart hleads' (h.reserved.apart j k a b hne ha hb)

/-- Apart from the rules of overtaken calls, a port of the host is redirected once at most. -/
theorem countP_settled_le_one (h : Reachable c ownerBase t) (q : UInt16) :
    t.settled.countP (HostCall.redirects q ·) ≤ 1 := by
  rw [settled, Multiset.countP_add]
  by_cases hnone : ∀ s g, t.pool.slots.find? s = some g →
      g.kept.countP (HostCall.redirects q ·) = 0
  · rw [Pool.countP_stock, Table.tally_eq_zero hnone, Nat.zero_add]
    exact countP_tally_settled_le_one h q
  · -- a slot that is not being given back has its rules, so no call has them
    push Not at hnone
    obtain ⟨s, g, hfind, hne⟩ := hnone
    obtain ⟨hfree, port, hport, hrules⟩ := h.wired.exists_port_of_countP_kept hfind hne
    rw [countP_tally_settled, Table.tally_eq_zero fun k job hjob => ?_, Nat.add_zero]
    · exact countP_pool_stock_le_one h q
    · by_contra hcount
      obtain ⟨s', g', hfind', hleads⟩ := h.exists_leads_of_countP_settled hjob hcount
      obtain rfl := h.orderly.regular.eq_of_port hfind hfind'
        (Option.isSome_iff_exists.2 ⟨port, hport⟩) hleads.isSome
      obtain rfl := Option.some.inj (hfind.symm.trans hfind')
      exact hleads.not_kept hfree hport hrules

end Settled

end Traffic

end VmNode
