import VmNode.Launch.Attempt
import VmNode.Proofs.Network.Subnet
import VmNode.Proofs.Node.Exclusive
import VmNode.Proofs.Node.Provision

/-!
# Users of machines

The machine in slot `n` runs as the user with the number `uidBase + n`. This number is worked
out twice: for the owner of the tap device when the slot is leased, and for the jailer when the
hypervisor is launched.

The two agree, and machines that are live at once run as different users
(`NodeConfig.users_of_validate`). That none of them is the superuser and that all the numbers
fit into 32 bits is not looked at when a configuration is checked (`NodeConfig.user_superuser`):
it is so exactly if `uidBase` is not zero and leaves room for a number for each slot.
-/

namespace VmNode

/-- The value of a flag, in arguments where a value follows each flag. -/
def Jail.argument? (flag : String) : List String → Option String
  | name :: value :: rest => if name = flag then some value else argument? flag rest
  | _ => none

/-- The network identity that is handed to the launcher. -/
def ProvisionPhase.network? : ProvisionPhase → Option NetworkInfo
  | .openConsole network | .launch network .. => some network
  | _ => none

namespace Node

/-- What the launcher is handed is the network identity that the record shows. -/
theorem Run.network_of_launching {made : List Step} {ids : List InstanceId} {n : Node}
    (h : Run made ids n) : ∀ {t id spec phase network},
    n.work? t = some (.provision id spec phase) → phase.network? = some network →
    ∃ r, n.registry.records.find? id = some r ∧ r.state = .provisioning ∧
      r.network = network := by
  induction h with
  | start hstart =>
    obtain rfl := start_eq_ok hstart
    exact fun ht => by cases ht
  | @move made ids n m a hrun hlegal ih =>
    intro t id spec phase network hm hphase
    rcases (hlegal.onTask t).of_provision hm with
      ht | ⟨-, hbegun⟩ | ⟨phase, k, ha, ht, hadvance, rfl⟩
    · obtain ⟨r, hfind, hstate, hnetwork⟩ := ih ht hphase
      by_cases hsame : m.registry.records.find? id = some r
      · exact ⟨r, hsame, hstate, hnetwork⟩
      · -- the record is changed by the call itself, which then is in another phase
        obtain ⟨s, spec', phase', ha, hs⟩ := hrun.of_provisioning hlegal hfind hstate hsame
        obtain rfl := hrun.raises.single _ _ _ _ _ _ _ hs ht
        obtain ⟨work, k, work', hwork, hadvance, rfl, hwork'⟩ := hlegal.advance ha
        obtain rfl := Option.some.inj (hwork.symm.trans ht)
        obtain rfl := Option.some.inj (hwork'.symm.trans hm)
        cases hadvance with
        | errand herrand | answer herrand => cases phase <;> cases hphase <;> cases herrand
        | provision hsteps => cases hsteps
    · rcases hbegun.of_provision.2 with rfl | ⟨_, rfl⟩ <;> cases hphase
    · cases hadvance with
      | errand herrand _ heq | answer herrand _ heq =>
        cases hrun.raises.resumes ht herrand heq <;> cases hphase
      | provision hsteps =>
        cases hsteps with
        | insert hnone =>
          obtain rfl := Option.some.inj hphase
          exact ⟨_, Table.find?_insert_self .., rfl, rfl⟩
        | openConsole => exact ih ht hphase
        | _ => cases hphase
      | launched | unlaunched => cases hphase

end Node

namespace NodeConfig

variable {c : NodeConfig} {slot : Nat}

/-- The user of the machine in a slot. -/
def user (c : NodeConfig) (slot : Nat) : Nat := c.hypervisor.uidBase.toNat + slot

/-- A tap device belongs to a user, and the jailer is told of the same user and group when a
    hypervisor is launched for a network identity. -/
structure RunsAs (c : NodeConfig) (link : GuestLink) (network : NetworkInfo) (uid : Nat) :
    Prop where
  /-- The user is named when the tap device is made. -/
  tap : ["ip", "-n", link.netns, "tuntap", "add", "dev", link.tap, "mode", "tap", "user",
    toString uid, "group", toString uid] ∈ link.setupCommands
  /-- The jailer is told to run the hypervisor as the user. -/
  jailer : ∀ a : Attempt, a.config = c.hypervisor → a.request.network = network →
    Jail.argument? "--uid" a.jailerArgs = some (toString uid) ∧
      Jail.argument? "--gid" a.jailerArgs = some (toString uid)

/-- In a node the machines of live instances run as users of their own. -/
structure Separates (c : NodeConfig) (n : Node) : Prop where
  /-- A hypervisor is launched for the network identity in the record. -/
  launch : ∀ t id spec network console deadline,
    n.work? t = some (.provision id spec (.launch network console deadline)) →
    ∃ r, n.registry.records.find? id = some r ∧ r.state.isLive = true ∧ r.network = network
  /-- Up to when the lease is given back, the tap device of the instance belongs to the user
      that its machine runs as, which is the user of its slot. -/
  owner : ∀ id r, n.registry.records.find? id = some r → r.state.isLive = true → ¬ n.Vacates r →
    r.network.slot.toNat < c.network.slotCount ∧
      ∃ g, n.pool.slots.find? r.network.slot.toNat = some g ∧ g.holder = id ∧
        c.RunsAs g.link r.network (c.user r.network.slot.toNat)
  /-- Machines of different instances run as different users. -/
  apart : ∀ id id' r r', id ≠ id' → n.registry.records.find? id = some r →
    n.registry.records.find? id' = some r' → r.state.isLive = true → r'.state.isLive = true →
    ¬ n.Vacates r → ¬ n.Vacates r' →
    c.user r.network.slot.toNat ≠ c.user r'.network.slot.toNat

/-- Each slot has a user of its own. -/
structure Users (c : NodeConfig) : Prop where
  /-- The link of a slot belongs to the user that its machine runs as. -/
  same : ∀ id, ∀ slot < c.network.slotCount,
    let link := Pool.linkFor c.network (some c.hypervisor.uidBase.toNat) id slot
    c.RunsAs link (Job.leaseOf id slot link).info (c.user slot)
  /-- This is the link that is set up for whoever gets the slot. -/
  taken : ∀ (p p' : Pool) id slot link,
    p.take c.network (some c.hypervisor.uidBase.toNat) id = .ok (slot, link, p') →
    slot < c.network.slotCount ∧
      link = Pool.linkFor c.network (some c.hypervisor.uidBase.toNat) id slot
  /-- Different slots have different users. -/
  apart : ∀ s s', s ≠ s' → c.user s ≠ c.user s'
  /-- No user is the superuser, and each has a number of 32 bits, if and only if the numbers
      begin above zero and end in time. -/
  plain : (∀ slot < c.network.slotCount, c.user slot ≠ 0 ∧ c.user slot < UInt32.size) ↔
    c.hypervisor.uidBase ≠ 0 ∧
      c.hypervisor.uidBase.toNat + c.network.slotCount ≤ UInt32.size
  /-- Whatever is done with a node, its machines run as users of their own. -/
  live : ∀ start moves n, Node.start c (some c.hypervisor.uidBase.toNat) = .ok start →
    (provisioned moves).Nodup → start.play moves = some n → c.Separates n

theorem argument?_jailerArgs (a : Attempt) :
    Jail.argument? "--uid" a.jailerArgs = some (toString a.uid) ∧
      Jail.argument? "--gid" a.jailerArgs = some (toString a.uid) := by
  simp [Attempt.jailerArgs, Jail.jailerArgs, Jail.argument?]

/-- What is launched for the network identity of a slot runs as the user of the slot, and so
    does the link of the slot belong to it. -/
theorem runsAs_linkFor {network : NetworkInfo} (id : InstanceId)
    (hslot : network.slot.toNat = slot) :
    c.RunsAs (Pool.linkFor c.network (some c.hypervisor.uidBase.toNat) id slot) network
      (c.user slot) where
  tap := by simp [GuestLink.setupCommands, Pool.linkFor, GuestLink.ofInstance, user]
  jailer a hconfig hnetwork := by
    have huid : a.uid = c.user slot := by rw [Attempt.uid, hconfig, hnetwork, hslot, user]
    rw [← huid]
    exact argument?_jailerArgs a

theorem flaw?_network_of_validate (h : c.validate = .ok ()) : c.network.flaw? = none := by
  cases hflaw : c.network.flaw? with
  | none => rfl
  | some flaw =>
    rw [validate, flaw?, hflaw] at h
    cases h

/-- A configuration that is accepted has a slot. -/
theorem slotCount_pos (h : c.validate = .ok ()) : 0 < c.network.slotCount := by
  obtain ⟨hroom, -⟩ := NetworkConfig.rules_of_validate
    (NetworkConfig.validate_eq_ok.2 (flaw?_network_of_validate h))
  have hcount := NetworkConfig.slotCount_mul_four hroom
  have hpos : 0 < 2 ^ (32 - c.network.prefixLen.toNat) := Nat.two_pow_pos _
  rw [Nat.one_shiftLeft] at hcount
  omega

theorem plain_iff (h : c.validate = .ok ()) :
    (∀ slot < c.network.slotCount, c.user slot ≠ 0 ∧ c.user slot < UInt32.size) ↔
      c.hypervisor.uidBase ≠ 0 ∧
        c.hypervisor.uidBase.toNat + c.network.slotCount ≤ UInt32.size := by
  have hpos := slotCount_pos h
  have hzero : c.hypervisor.uidBase ≠ 0 ↔ c.hypervisor.uidBase.toNat ≠ 0 :=
    not_congr UInt32.toNat_inj.symm
  rw [hzero]
  simp only [user]
  constructor
  · intro husers
    have hfirst := husers 0 hpos
    have hlast := husers (c.network.slotCount - 1) (by omega)
    omega
  · rintro ⟨hbase, hroom⟩ slot hslot
    omega

theorem separates_of_play {start n : Node} {moves : List Move}
    (hstart : Node.start c (some c.hypervisor.uidBase.toNat) = .ok start)
    (hids : (provisioned moves).Nodup) (hplay : start.play moves = some n) :
    c.Separates n := by
  have hrun := Node.run_of_play hstart hids hplay
  have hn := hrun.tidy
  obtain ⟨t, number, ht, -, hmirrors⟩ := Node.exists_traffic hstart hids hplay
  have hreg : t.pool.Regular c.network (some c.hypervisor.uidBase.toNat) :=
    ht.config.1 ▸ ht.config.2 ▸ ht.orderly.regular
  have hoccupies : ∀ id r, n.registry.records.find? id = some r → r.state.isLive = true →
      ¬ n.Vacates r → ∃ g, n.pool.slots.find? r.network.slot.toNat = some g ∧ g.holder = id := by
    intro id r hfind hlive hstays
    obtain ⟨x, hx, hholder⟩ :=
      (hn.exists_hold_of_isLive hrun.thorough hfind hlive).resolve_right hstays
    obtain ⟨g, hslot, hmine, -⟩ := hn.occupies ht hmirrors hfind hx hholder
    exact ⟨g, hslot, hmine.trans (hn.keyed id r hfind)⟩
  refine ⟨fun t id spec network console deadline hwork => ?_, fun id r hfind hlive hstays => ?_,
    fun id id' r r' hne hfind hfind' hlive hlive' hstays hstays' heq => ?_⟩
  · obtain ⟨r, hfind, hstate, hnetwork⟩ := hrun.network_of_launching hwork rfl
    exact ⟨r, hfind, by rw [hstate]; rfl, hnetwork⟩
  · obtain ⟨g, hslot, hholder⟩ := hoccupies id r hfind hlive hstays
    refine ⟨?_, g, hslot, hholder, ?_⟩
    · rw [← hmirrors.pool] at hslot
      exact hreg.within r.network.slot.toNat (by rw [hslot]; rfl)
    · rw [← hmirrors.pool] at hslot
      rw [hreg.link _ g hslot]
      exact runsAs_linkFor _ rfl
  · -- one slot is held for one instance
    obtain ⟨g, hslot, hholder⟩ := hoccupies id r hfind hlive hstays
    obtain ⟨g', hslot', hholder'⟩ := hoccupies id' r' hfind' hlive' hstays'
    rw [← Nat.add_left_cancel heq, hslot, Option.some.injEq] at hslot'
    exact hne (by rw [← hholder, hslot', hholder'])

/-- The tap device of a slot belongs to the user that the machine in the slot runs as, and
    machines that are live at once run as different users. Those users are all unprivileged and
    have numbers of 32 bits if and only if `uidBase` is above zero and leaves room for a number
    for each slot. -/
theorem users_of_validate (h : c.validate = .ok ()) : c.Users where
  same id slot hslot := runsAs_linkFor id
    (UInt32.toNat_ofNat_of_lt' (Nat.lt_trans hslot c.network.slotCount_lt))
  taken p p' id slot link htake := by
    obtain ⟨-, -, hslot, hlink, -⟩ := Pool.take_eq_ok htake
    exact ⟨hslot, hlink⟩
  apart s s' hne heq := hne (Nat.add_left_cancel heq)
  plain := plain_iff h
  live start moves n hstart hids hplay := separates_of_play hstart hids hplay

/-- By default the users have the numbers from 10000 on. -/
theorem users_default : NodeConfig.validate {} = .ok () ∧ NodeConfig.Users {} ∧
    ∀ slot < NetworkConfig.slotCount {}, user {} slot ≠ 0 ∧ user {} slot < UInt32.size := by
  have hvalid : NodeConfig.validate {} = .ok () := by decide +kernel
  have husers := users_of_validate hvalid
  exact ⟨hvalid, husers, husers.plain.2 ⟨by decide +kernel, by decide +kernel⟩⟩

/-- The numbers of the users begin at zero. -/
def exalted : NodeConfig := { hypervisor := { uidBase := 0 } }

/-- The numbers of the users begin with the last one of 32 bits. -/
def cramped : NodeConfig := { hypervisor := { uidBase := 4294967295 } }

/-- Both configurations are accepted. With the one, the machine in the first slot runs as the
    superuser; with the other, the user of the second slot has no number of 32 bits. -/
theorem user_superuser :
    exalted.validate = .ok () ∧ 0 < exalted.network.slotCount ∧
      (let link := Pool.linkFor exalted.network (some exalted.hypervisor.uidBase.toNat) "i-1" 0
      exalted.RunsAs link (Job.leaseOf "i-1" 0 link).info 0) ∧
    cramped.validate = .ok () ∧ 1 < cramped.network.slotCount ∧ UInt32.size ≤ cramped.user 1 :=
  ⟨by decide +kernel, by decide +kernel, runsAs_linkFor "i-1" rfl, by decide +kernel,
    by decide +kernel, by decide +kernel⟩

end NodeConfig

end VmNode
