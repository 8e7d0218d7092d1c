import VmNode.Network.Pool

/-!
# Names and addresses of links

The devices of an instance are named after twelve letters and digits of its identifier,
which two instances may share. So two links have different devices once their tap devices
are different, and this is what the pool looks at before it takes a slot. The addresses of
a link are those of its slot.

* `GuestLink.utf8ByteSize_le_of_mem_devices`: the names fit into what the host allows.
* `GuestLink.notMem_devices`: links whose tap devices differ have no device in common.
* `NetworkConfig.notMem_addresses`: slots of the subnet have no address in common.
-/

namespace VmNode

namespace InstanceId

/-- Letters and digits take a byte each. -/
theorem utf8Size_of_isAlphanum {ch : Char} (h : ch.isAlphanum) : ch.utf8Size = 1 := by
  rw [Char.utf8Size_eq_one_iff, UInt32.le_iff_toNat_le]
  -- the three ranges of letters and digits end below 128
  have hle : ∀ hi : UInt32, ch.val ≤ hi → hi.toNat ≤ 127 → ch.val.toNat ≤ 127 :=
    fun _ hch hhi => Nat.le_trans (UInt32.le_iff_toNat_le.1 hch) hhi
  rcases (Bool.or_eq_true _ _).mp h with halpha | hdigit
  · rcases (Bool.or_eq_true _ _).mp halpha with hupper | hlower
    · exact hle 'Z'.val (of_decide_eq_true hupper).2 (by decide)
    · exact hle 'z'.val (of_decide_eq_true ((Bool.and_eq_true _ _).mp hlower).2) (by decide)
  · exact hle '9'.val (of_decide_eq_true ((Bool.and_eq_true _ _).mp hdigit).2) (by decide)

/-- A text of letters and digits has as many bytes as characters. -/
theorem utf8ByteSize_ofList {l : List Char} (h : ∀ ch ∈ l, ch.isAlphanum) :
    (String.ofList l).utf8ByteSize = l.length := by
  induction l with
  | nil => rfl
  | cons ch l ih =>
    have hch := utf8Size_of_isAlphanum (h ch List.mem_cons_self)
    have hl := ih fun d hd => h d (List.mem_cons_of_mem _ hd)
    have hcons : String.ofList (ch :: l) = String.singleton ch ++ String.ofList l := by
      rw [String.singleton_eq_ofList, ← String.ofList_append]
      rfl
    rw [hcons, String.utf8ByteSize_append, String.utf8ByteSize_singleton, hch, hl,
      List.length_cons, Nat.add_comm]

/-- A device is named after at most twelve of them. -/
theorem utf8ByteSize_deviceSuffix_le (id : InstanceId) : id.deviceSuffix.utf8ByteSize ≤ 12 := by
  rw [deviceSuffix, utf8ByteSize_ofList fun ch hch =>
    (List.mem_filter.1 (List.mem_of_mem_take hch)).2, List.length_take]
  exact Nat.min_le_left _ _

end InstanceId

namespace GuestLink

/-- The network devices of a link. -/
def devices (l : GuestLink) : List String := [l.tap, l.hostLink, l.peerLink]

variable {id id' : InstanceId} {gateway gateway' guest guest' : Ipv4} {owner owner' : Option Nat}

/-- Each device name has at most fifteen bytes. -/
theorem utf8ByteSize_le_of_mem_devices {name : String}
    (h : name ∈ (ofInstance id gateway guest owner).devices) : name.utf8ByteSize ≤ 15 := by
  have hsuffix := id.utf8ByteSize_deviceSuffix_le
  simp only [devices, ofInstance, List.mem_cons, List.not_mem_nil, or_false] at h
  rcases h with rfl | rfl | rfl
  all_goals
    rw [String.utf8ByteSize_append]
    exact Nat.le_trans (Nat.add_le_add_left hsuffix _) (by decide)

/-- Two instances have the same tap device if their names are made from the same letters. -/
theorem tap_eq_iff : (ofInstance id gateway guest owner).tap =
    (ofInstance id' gateway' guest' owner').tap ↔ id.deviceSuffix = id'.deviceSuffix :=
  String.append_right_inj _

/-- The same goes for their network namespaces. -/
theorem netns_eq_iff : (ofInstance id gateway guest owner).netns =
    (ofInstance id' gateway' guest' owner').netns ↔ id.deviceSuffix = id'.deviceSuffix :=
  String.append_right_inj _

/-- The addresses of a link. -/
def addresses (l : GuestLink) : List Ipv4 := [l.gateway, l.guest]

/-- Two links have no name and no address in common. -/
structure Disjoint (a b : GuestLink) : Prop where
  /-- No address in common. -/
  addresses : ∀ x ∈ a.addresses, x ∉ b.addresses
  /-- Different network namespaces. -/
  netns : a.netns ≠ b.netns
  /-- No device in common. -/
  devices : ∀ x ∈ a.devices, x ∉ b.devices

/-- Two texts that begin differently are different. -/
theorem append_ne {a b : String} (hlen : a.toList.length = b.toList.length) (hne : a ≠ b)
    (s t : String) : a ++ s ≠ b ++ t := fun h => by
  have hlist := congrArg String.toList h
  rw [String.toList_append, String.toList_append] at hlist
  exact hne (String.toList_injective (List.append_inj_left hlist hlen))

/-- Links whose tap devices differ have no device in common. -/
theorem notMem_devices
    (hne : (ofInstance id gateway guest owner).tap ≠ (ofInstance id' gateway' guest' owner').tap) :
    ∀ x ∈ (ofInstance id gateway guest owner).devices,
      x ∉ (ofInstance id' gateway' guest' owner').devices := by
  have hsuffix : id.deviceSuffix ≠ id'.deviceSuffix := fun h => hne (tap_eq_iff.2 h)
  have hsame : ∀ kind : String, kind ++ id.deviceSuffix ≠ kind ++ id'.deviceSuffix :=
    fun kind h => hsuffix ((String.append_right_inj _).1 h)
  intro x hx hx'
  simp only [devices, ofInstance, List.mem_cons, List.not_mem_nil, or_false] at hx hx'
  rcases hx with rfl | rfl | rfl <;> rcases hx' with h | h | h
  all_goals first
    | exact hsame _ h
    | exact append_ne (by decide) (by decide) _ _ h

/-- The devices of one link are different ones. -/
theorem nodup_devices : (ofInstance id gateway guest owner).devices.Nodup := by
  have hkind : ∀ a b : String, a.toList.length = b.toList.length → a ≠ b →
      a ++ id.deviceSuffix ≠ b ++ id.deviceSuffix := fun a b hlen hne => append_ne hlen hne _ _
  simp only [devices, ofInstance, List.nodup_cons, List.mem_cons, List.not_mem_nil, or_false,
    not_or, not_false_eq_true, List.nodup_nil, and_true]
  exact ⟨⟨hkind _ _ (by decide) (by decide), hkind _ _ (by decide) (by decide)⟩,
    hkind _ _ (by decide) (by decide)⟩

end GuestLink

namespace NetworkConfig

variable {c : NetworkConfig} {s s' : Nat}

/-- However large the subnet is, its slots fit into 30 bits. -/
theorem slotCount_le (c : NetworkConfig) : c.slotCount ≤ 1 <<< 30 := by
  rw [slotCount]
  split
  · decide
  · rw [Nat.one_shiftLeft, Nat.one_shiftLeft]
    exact Nat.pow_le_pow_right (by decide) (by omega)

/-- So the number of a slot fits into 32. -/
theorem slotCount_lt (c : NetworkConfig) : c.slotCount < UInt32.size :=
  Nat.lt_of_le_of_lt c.slotCount_le (by decide)

/-- Addresses at different places of blocks of four are different, also where the subnet
    wraps around. -/
theorem address_ne (hs : s < c.slotCount) (hs' : s' < c.slotCount) {i j : Nat} (hi : i < 4)
    (hj : j < 4) (hne : s ≠ s') :
    UInt32.ofNat (c.slotBase s + i) ≠ UInt32.ofNat (c.slotBase s' + j) := fun h => by
  have hcount := c.slotCount_le
  have hmod := congrArg UInt32.toNat h
  simp only [UInt32.toNat_ofNat', slotBase] at hmod
  omega

/-- Slots of the subnet have no address in common. -/
theorem notMem_addresses (hs : s < c.slotCount) (hs' : s' < c.slotCount) (hne : s ≠ s')
    {link link' : GuestLink} (hgateway : link.gateway = c.gateway s)
    (hguest : link.guest = c.guest s) (hgateway' : link'.gateway = c.gateway s')
    (hguest' : link'.guest = c.guest s') : ∀ x ∈ link.addresses, x ∉ link'.addresses := by
  have hbits : ∀ i j, i < 4 → j < 4 →
      (⟨UInt32.ofNat (c.slotBase s + i)⟩ : Ipv4) ≠ ⟨UInt32.ofNat (c.slotBase s' + j)⟩ :=
    fun i j hi hj h => address_ne hs hs' hi hj hne (congrArg Ipv4.bits h)
  intro x hx hx'
  simp only [GuestLink.addresses, hgateway, hguest, hgateway', hguest', gateway, guest,
    List.mem_cons, List.not_mem_nil, or_false] at hx hx'
  rcases hx with rfl | rfl <;> rcases hx' with h | h
  all_goals exact hbits _ _ (by decide) (by decide) h

end NetworkConfig

end VmNode
