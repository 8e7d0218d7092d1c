import VmNode.Proofs.Network.Told
import VmNode.Proofs.Node.Gone
import VmNode.Proofs.Node.Run

/-!
# Addresses of live instances

The pool keeps the links of instances apart, but callers see the records. A record shows the
link that the lease tells of for as long as it is there, and the slot may be given back before.

Until the call that shuts an instance down has given the lease back, the pool has the slot
for the instance that its record shows (`Node.Occupies`). From then on until the next step of
this call the record is still `deprovisioning` (`Node.Vacates`), and nothing keeps the pool
from leasing the slot to another instance (`Node.shared_relet`). All other live instances have
nothing in common (`Node.live_records_apart`).
-/

namespace VmNode

/-- Two network identities have no slot, no address and no device in common. -/
structure NetworkInfo.Apart (a b : NetworkInfo) : Prop where
  slot : a.slot ≠ b.slot
  guest : a.guest ≠ b.guest
  gateway : a.gateway ≠ b.gateway
  tap : a.tap ≠ b.tap
  netns : a.netns ≠ b.netns
  hostLink : a.hostLink ≠ b.hostLink

/-- The published ports make no difference. -/
theorem NetworkInfo.Apart.of_ports {a b : NetworkInfo}
    (h : Apart { a with ports := [] } { b with ports := [] }) : a.Apart b :=
  ⟨h.slot, h.guest, h.gateway, h.tap, h.netns, h.hostLink⟩

/-- Leases of different slots tell of nothing in common if the links have nothing in common. -/
theorem GuestLink.Disjoint.apart {a b : GuestLink} (h : a.Disjoint b) (id id' : InstanceId)
    {s s' : Nat} (hs : UInt32.ofNat s ≠ UInt32.ofNat s') :
    (Job.leaseOf id s a).info.Apart (Job.leaseOf id' s' b).info := by
  have haddress : ∀ x ∈ a.addresses, ∀ y ∈ b.addresses, x ≠ y := fun x hx y hy heq =>
    h.addresses x hx (heq ▸ hy)
  have hdevice : ∀ x ∈ a.devices, ∀ y ∈ b.devices, x ≠ y := fun x hx y hy heq =>
    h.devices x hx (heq ▸ hy)
  have hgateway : ∀ l : GuestLink, l.gateway ∈ l.addresses := fun _ => List.mem_cons_self
  have hguest : ∀ l : GuestLink, l.guest ∈ l.addresses := fun l => by simp [GuestLink.addresses]
  have htap : ∀ l : GuestLink, l.tap ∈ l.devices := fun _ => List.mem_cons_self
  have hhost : ∀ l : GuestLink, l.hostLink ∈ l.devices := fun l => by simp [GuestLink.devices]
  exact ⟨hs, haddress _ (hguest a) _ (hguest b), haddress _ (hgateway a) _ (hgateway b),
    hdevice _ (htap a) _ (htap b), h.netns, hdevice _ (hhost a) _ (hhost b)⟩

/-- Whoever gives back the lease of an instance that is shut down is on its way with it, or
    has just done so. -/
theorem Work.of_returning {work : Work} {id : InstanceId} (h : work.role? id = some .returning) :
    ∃ timeout reason, (∃ e, work = .deprovision id timeout (.giveBack e reason)) ∨
      work = .deprovision id timeout (.enterStopped reason) := by
  cases work with
  | provision i spec phase =>
    obtain ⟨-, hrole⟩ := Option.ite_none_right_eq_some.1 h
    cases phase with
    | lease e => cases e <;> cases hrole
    | _ => cases hrole
  | deprovision i timeout phase =>
    obtain ⟨rfl, hrole⟩ := Option.ite_none_right_eq_some.1 h
    cases phase with
    | giveBack e reason => exact ⟨timeout, reason, .inl ⟨e, rfl⟩⟩
    | enterStopped reason => exact ⟨timeout, reason, .inr rfl⟩
    | _ => cases hrole
  | monitor | drain | forward | report | gone => cases h

namespace Node

variable {ids : List InstanceId} {n : Node} {id : InstanceId} {r : Record Nat}

/-- The pool has the slot for the instance that its record shows, with the link that it
    shows. -/
def Occupies (n : Node) (r : Record Nat) : Prop :=
  ∃ g, n.pool.slots.find? r.network.slot.toNat = some g ∧ g.holder = r.id ∧
    { r.network with ports := [] } = (Job.leaseOf r.id r.network.slot.toNat g.link).info

/-- The lease of an instance that is shut down was given back, and the next step of the call
    that shuts it down makes it `stopped`. -/
structure Vacates (n : Node) (r : Record Nat) : Prop where
  /-- The instance is being shut down. -/
  state : r.state = .deprovisioning
  /-- Its record has no lease any more. -/
  lease : r.lease = none
  /-- No slot is held for it. -/
  free : ∀ s g, n.pool.slots.find? s = some g → g.holder ≠ r.id
  /-- The call is about to make it `stopped`. -/
  task : ∃ t timeout reason, n.work? t = some (.deprovision r.id timeout (.enterStopped reason))

/-- For a live instance a slot is held, until the call that shuts it down has given its lease
    back. -/
theorem Tidy.exists_hold_of_isLive (hn : n.Tidy ids) (h : n.Thorough ids)
    (hfind : n.registry.records.find? id = some r) (hlive : r.state.isLive = true) :
    (∃ x ∈ n.pool.holds, x.holder = id) ∨ n.Vacates r := by
  have hid := hn.keyed id r hfind
  have hview := view_of_find? hfind
  have hheld : ∀ l, r.lease = some l → ∃ x ∈ n.pool.holds, x.holder = id := fun l hl =>
    ⟨_, Multiset.singleton_le.1 (hn.lease_holds_le hfind hl), hn.holder_of_lease hfind hl⟩
  have hfits : ∀ {q}, n.HasRole id q → q.Fits ⟨some r.status, (n.hub.current.find? id).isSome⟩ :=
    fun ⟨t, ht⟩ => hview ▸ hn.fits t id _ ht
  have hleased : ∀ {state p l}, r.status = ⟨state, p, some l⟩ → ∃ x ∈ n.pool.holds, x.holder = id :=
    fun hstatus => hheld _ (congrArg Status.lease hstatus)
  have hcovered := hn.covered id
  rw [hview] at hcovered
  obtain ⟨-, hstate⟩ := hcovered
  cases hs : r.state with
  | stopped | failed =>
    rw [hs] at hlive
    cases hlive
  | provisioning =>
    simp only [Record.status, hs] at hstate
    rcases hstate with hr | hr | hr
    all_goals
      obtain ⟨⟨l, hl⟩, -⟩ := hfits hr
      exact .inl (hleased (Option.some.inj hl))
  | running =>
    simp only [Record.status, hs] at hstate
    obtain ⟨l, hl⟩ := Option.isSome_iff_exists.1 hstate.2.1
    exact .inl (hheld l hl)
  | deprovisioning =>
    simp only [Record.status, hs] at hstate
    rcases hstate with hr | hr
    · obtain ⟨⟨l, hl⟩, -⟩ := hfits hr
      exact .inl (hleased (Option.some.inj hl))
    · obtain ⟨hstatus, -⟩ := hfits hr
      obtain ⟨t, ht⟩ := hr
      obtain ⟨work, hwork, hrole⟩ := Option.bind_eq_some_iff.1 ht
      obtain ⟨timeout, reason, ⟨e, rfl⟩ | rfl⟩ := Work.of_returning hrole
      · -- the lease is still in the hands of the call
        obtain ⟨l, hcall, hholder⟩ : e.Returns id := hn.proper t _ hwork
        obtain ⟨x, hx⟩ := Errand.exists_hold_of_release hcall
        exact .inl ⟨x, Multiset.mem_of_le (hn.work_holds_le hwork) hx,
          (Errand.slot_of_release hcall hx).2.symm.trans hholder⟩
      · refine .inr ⟨hs, congrArg Status.lease (Option.some.inj hstatus), fun s g hg hholder => ?_,
          t, timeout, reason, by rw [hid]; exact hwork⟩
        have hx : ⟨s, g.holder, g.releasing⟩ ∈ n.pool.holds := Pool.mem_holds.2 ⟨g, hg, rfl, rfl⟩
        have hnone := h.returning t _ id hwork hrole _ hx (hholder.trans hid)
        cases hnone

/-- A slot that is held for an instance is the one that its record shows. -/
theorem Tidy.occupies {t : Traffic} {number : Nat → Nat} {c : NetworkConfig}
    {ownerBase : Option Nat} (hn : n.Tidy ids) (ht : Traffic.Reachable c ownerBase t)
    (hmirrors : Mirrors ids n t number) (hfind : n.registry.records.find? id = some r) {x : Hold}
    (hx : x ∈ n.pool.holds) (hholder : x.holder = id) : n.Occupies r := by
  have hid := hn.keyed id r hfind
  -- the network identity in the record is that of a lease which was granted
  have hgranted : r.origin ∈ t.granted :=
    hmirrors.granted _ (.inr ⟨id, r, hfind, .inr rfl⟩)
  obtain ⟨g, hslot, hg, -⟩ := Pool.mem_holds.1 hx
  rw [← hmirrors.pool] at hslot
  have hmine : g.holder = r.id := hg.trans (hholder.trans hid.symm)
  obtain hs : x.slot = r.network.slot.toNat := ht.told.only _ hgranted x.slot g hslot hmine
  rw [hs] at hslot
  refine ⟨g, by rw [← hmirrors.pool]; exact hslot, hmine, ?_⟩
  rw [ht.orderly.regular.link _ g hslot, hmine]
  exact congrArg Lease.info (ht.told.link _ hgranted)

/-- Whatever calls are made and however the steps of tasks fall between each other, as long as
    no two instances get one identifier, a live instance has the slot that its record shows,
    unless its lease was given back and it is about to be `stopped`. Of all other live instances
    no two show the same slot, address or device. -/
theorem live_records_apart {config : NodeConfig} {ownerBase : Option Nat} {start : Node}
    {moves : List Move} (hstart : Node.start config ownerBase = .ok start)
    (hids : (provisioned moves).Nodup) (hplay : start.play moves = some n) :
    (∀ id r, n.registry.records.find? id = some r → r.state.isLive = true →
      n.Occupies r ∨ n.Vacates r) ∧
    ∀ id id' r r', id ≠ id' → n.registry.records.find? id = some r →
      n.registry.records.find? id' = some r' → r.state.isLive = true → r'.state.isLive = true →
      ¬ n.Vacates r → ¬ n.Vacates r' → r.network.Apart r'.network := by
  have hrun := run_of_play hstart hids hplay
  have hn := hrun.tidy
  obtain ⟨t, number, ht, -, hmirrors⟩ := exists_traffic hstart hids hplay
  have hlives : ∀ id r, n.registry.records.find? id = some r → r.state.isLive = true →
      n.Occupies r ∨ n.Vacates r := fun id r hfind hlive =>
    (hn.exists_hold_of_isLive hrun.thorough hfind hlive).imp_left
      fun ⟨_, hx, hholder⟩ => hn.occupies ht hmirrors hfind hx hholder
  refine ⟨hlives, fun id id' r r' hne hfind hfind' hlive hlive' hstays hstays' => ?_⟩
  obtain ⟨g, hg, hholder, hlink⟩ := (hlives id r hfind hlive).resolve_right hstays
  obtain ⟨g', hg', hholder', hlink'⟩ := (hlives id' r' hfind' hlive').resolve_right hstays'
  -- a slot is held for one instance
  have hslots : r.network.slot ≠ r'.network.slot := fun heq => by
    rw [heq, hg', Option.some.injEq] at hg
    rw [hg, hholder, hn.keyed id r hfind, hn.keyed id' r' hfind'] at hholder'
    exact hne hholder'
  have hslots' : r.network.slot.toNat ≠ r'.network.slot.toNat := fun heq =>
    hslots (UInt32.toNat_inj.1 heq)
  rw [← hmirrors.pool] at hg hg'
  refine .of_ports ?_
  rw [hlink, hlink']
  exact (ht.orderly.regular.disjoint hslots' hg hg').apart _ _ (by simpa using hslots)

/-- An instance is provisioned by a task, up to its record. -/
def enrol (id : InstanceId) (t : Nat) : List Move :=
  let ok : Move := .host t (.ok ())
  [.begin (.provision id (.ofImage "app")), .run t, ok, ok, ok, ok, .run t, .run t]

/-- Two instances that are live at once. -/
theorem apart_enrol : ∃ start n r r', Node.start {} none = .ok start ∧
    start.play (raised ++ enrol "i-2" 2) = some n ∧ n.registry.records.find? "i-1" = some r ∧
    n.registry.records.find? "i-2" = some r' ∧ r.state = .running ∧ r'.state = .provisioning ∧
    n.Occupies r ∧ r.network.Apart r'.network := by
  let n := (blank.play (raised ++ enrol "i-2" 2)).get (by decide +kernel)
  have hplay : blank.play (raised ++ enrol "i-2" 2) = some n := (Option.some_get _).symm
  have hfirst : (n.registry.records.find? "i-1").map Record.state = some .running := by
    decide +kernel
  have hsecond : (n.registry.records.find? "i-2").map Record.state = some .provisioning := by
    decide +kernel
  obtain ⟨r, hfind, hstate⟩ := Option.map_eq_some_iff.1 hfirst
  obtain ⟨r', hfind', hstate'⟩ := Option.map_eq_some_iff.1 hsecond
  have hlive : r.state.isLive = true := congrArg InstanceState.isLive hstate
  have hlive' : r'.state.isLive = true := congrArg InstanceState.isLive hstate'
  have hstays : ¬ n.Vacates r := fun h => absurd (hstate.symm.trans h.state) (by decide)
  have hstays' : ¬ n.Vacates r' := fun h => absurd (hstate'.symm.trans h.state) (by decide)
  obtain ⟨hlives, hapart⟩ := live_records_apart start_blank (by decide +kernel) hplay
  exact ⟨blank, n, r, r', start_blank, hplay, hfind, hfind', hstate, hstate',
    (hlives _ r hfind hlive).resolve_right hstays,
    hapart "i-1" "i-2" r r' (by decide) hfind hfind' hlive hlive' hstays hstays'⟩

/-- An instance is shut down up to the step that makes it `stopped`, and by then another one
    has got its slot. -/
def relet : List Move :=
  let ok : Move := .host 2 (.ok ())
  raised ++ [.begin (.deprovision "i-1" none), .run 2, .run 2, .run 2, .run 2, .process 0 .take,
    .process 0 (.delivery .delivered), .process 0 (.exit (.exited (some 0))), .process 0 .cleaned,
    .run 2, .run 2, .run 2, .run 2, ok, ok, ok, ok, .run 2] ++ enrol "i-2" 3

/-- So both are live and show the same slot and the same addresses. -/
theorem shared_relet : ∃ start n r r', Node.start {} none = .ok start ∧
    (provisioned relet).Nodup ∧ start.play relet = some n ∧
    n.registry.records.find? "i-1" = some r ∧ n.registry.records.find? "i-2" = some r' ∧
    r.state.isLive = true ∧ r'.state.isLive = true ∧ r.network.slot = r'.network.slot ∧
    r.network.guest = r'.network.guest ∧ r.network.gateway = r'.network.gateway := by
  let n := (blank.play relet).get (by decide +kernel)
  let r := (n.registry.records.find? "i-1").get (by decide +kernel)
  let r' := (n.registry.records.find? "i-2").get (by decide +kernel)
  exact ⟨blank, n, r, r', start_blank, by decide +kernel, (Option.some_get _).symm,
    (Option.some_get _).symm, (Option.some_get _).symm, by decide +kernel, by decide +kernel,
    by decide +kernel, by decide +kernel, by decide +kernel⟩

end Node

end VmNode
