import VmNode.Proofs.Network.Link

/-!
# The subnet and its blocks

The subnet of the guests is cut into blocks of four addresses, one for each slot. Under the
mask of a link the lowest address of a block is the one of the network and the highest the
one for broadcasts, which leaves two for the gateway and the guest.

* `NetworkConfig.tiled_of_validate`: the blocks of an accepted configuration are the subnet,
  none shares an address with another, and no address wraps around.
-/

namespace VmNode

namespace Ipv4

variable {a b : Ipv4}

/-- The address of the network that an address belongs to under a mask. -/
def network (a mask : Ipv4) : Ipv4 := ⟨a.bits &&& mask.bits⟩

/-- The address that reaches the whole network of an address under a mask. -/
def broadcast (a mask : Ipv4) : Ipv4 := ⟨a.bits ||| ~~~mask.bits⟩

/-- Whether two addresses have the first `len` bits in common. -/
def SharesPrefix (len : Nat) (a b : Ipv4) : Prop :=
  a.bits.toNat >>> (32 - len) = b.bits.toNat >>> (32 - len)

theorem ext_toNat (h : a.bits.toNat = b.bits.toNat) : a = b := by
  cases a
  cases b
  exact congrArg Ipv4.mk (UInt32.toNat_inj.1 h)

theorem bits_ofNat {n : Nat} (h : n < UInt32.size) :
    (⟨UInt32.ofNat n⟩ : Ipv4).bits.toNat = n :=
  UInt32.toNat_ofNat_of_lt' h

/-- The mask clears the lowest two bits. -/
theorem network_netmask (a : Ipv4) :
    (a.network NetworkInfo.netmask).bits.toNat = 4 * (a.bits.toNat / 4) := by
  have hmask : NetworkInfo.netmask.bits.toNat = (2 ^ 30 - 1) <<< 2 := by decide
  have hclear : 4 * (a.bits.toNat / 4) = (a.bits.toNat / 2 ^ 2) <<< 2 := by
    rw [Nat.shiftLeft_eq]
    omega
  rw [network, UInt32.toNat_and, hmask, hclear]
  refine Nat.eq_of_testBit_eq fun i => ?_
  rw [Nat.testBit_and, Nat.testBit_shiftLeft, Nat.testBit_two_pow_sub_one, Nat.testBit_shiftLeft,
    Nat.testBit_div_two_pow]
  -- an address has no bit from the thirty-second on
  by_cases hi : i < 32
  · by_cases hlow : 2 ≤ i
    · have hback : i - 2 + 2 = i := Nat.sub_add_cancel hlow
      simp [hlow, hback, show i - 2 < 30 by omega]
    · simp [hlow]
  · have hhigh : a.bits.toNat < 2 ^ i :=
      Nat.lt_of_lt_of_le a.bits.toNat_lt (Nat.pow_le_pow_right (by decide) (Nat.not_lt.1 hi))
    have hback : i - 2 + 2 = i := by omega
    simp [Nat.testBit_lt_two_pow hhigh, hback]

/-- What the mask leaves out are the lowest two bits. -/
theorem broadcast_netmask (a : Ipv4) :
    (a.broadcast NetworkInfo.netmask).bits.toNat = 4 * (a.bits.toNat / 4) + 3 := by
  have hmask : (~~~NetworkInfo.netmask.bits).toNat = 3 := by decide
  have hlow : ∀ r < 4, r ||| 3 = 3 := by decide
  have hmod : a.bits.toNat % 4 < 4 := Nat.mod_lt _ (by decide)
  rw [broadcast, UInt32.toNat_or, hmask]
  calc a.bits.toNat ||| 3
    _ = (2 ^ 2 * (a.bits.toNat / 4) + a.bits.toNat % 4) ||| 3 := by
        rw [show 2 ^ 2 = 4 from rfl, Nat.div_add_mod]
    _ = 2 ^ 2 * (a.bits.toNat / 4) ||| 3 := by
        rw [Nat.two_pow_add_eq_or_of_lt hmod, Nat.or_assoc, hlow _ hmod]
    _ = 4 * (a.bits.toNat / 4) + 3 := (Nat.two_pow_add_eq_or_of_lt (by decide) _).symm

end Ipv4

namespace NetworkConfig

variable {c : NetworkConfig} {m n : Nat} {a : Ipv4}

/-- The addresses with the prefix of the subnet. -/
def InSubnet (c : NetworkConfig) (a : Ipv4) : Prop :=
  a.SharesPrefix c.prefixLen.toNat c.subnetBase

/-- The four addresses of a slot's block. -/
def InBlock (c : NetworkConfig) (n : Nat) (a : Ipv4) : Prop :=
  c.slotBase n ≤ a.bits.toNat ∧ a.bits.toNat ≤ c.slotBase n + 3

/-- The blocks of the slots tile the subnet, each with a gateway and a guest. -/
structure Tiled (c : NetworkConfig) : Prop where
  /-- No block reaches beyond the last of all addresses. -/
  fits : ∀ n < c.slotCount, c.slotBase n + 3 < UInt32.size
  /-- An address is in the subnet once it is in the block of a slot, and only then. -/
  covers : ∀ a, c.InSubnet a ↔ ∃ n < c.slotCount, c.InBlock n a
  /-- No address is in two blocks. -/
  apart : ∀ m < c.slotCount, ∀ n < c.slotCount, m ≠ n → ∀ a, c.InBlock m a → ¬c.InBlock n a
  /-- The gateway is the second address of the block. -/
  gateway : ∀ n < c.slotCount, (c.gateway n).bits.toNat = c.slotBase n + 1
  /-- The guest is the third address of the block. -/
  guest : ∀ n < c.slotCount, (c.guest n).bits.toNat = c.slotBase n + 2
  /-- A block is the network of its gateway and of its guest under the mask of a link. -/
  shared : ∀ n < c.slotCount, ∀ a,
    (c.InBlock n a ↔ a.network NetworkInfo.netmask = (c.gateway n).network NetworkInfo.netmask) ∧
    (c.InBlock n a ↔ a.network NetworkInfo.netmask = (c.guest n).network NetworkInfo.netmask)
  /-- The gateway and the guest are the addresses of the block that name a host. -/
  hosts : ∀ n < c.slotCount, ∀ a, c.InBlock n a →
    (a = c.gateway n ∨ a = c.guest n ↔
      a ≠ a.network NetworkInfo.netmask ∧ a ≠ a.broadcast NetworkInfo.netmask)

theorem validate_eq_ok : c.validate = .ok () ↔ c.flaw? = none := by
  rw [validate]
  cases c.flaw? with
  | none => exact ⟨fun _ => rfl, fun _ => rfl⟩
  | some flaw => exact ⟨fun h => (by cases h), fun h => (by cases h)⟩

/-- What the rules say about the subnet. -/
theorem rules_of_validate (h : c.validate = .ok ()) :
    c.prefixLen.toNat ≤ 30 ∧ 8 ≤ c.prefixLen.toNat ∧
      1 <<< (32 - c.prefixLen.toNat) ∣ c.subnetBase.bits.toNat := by
  rw [validate_eq_ok, flaw?] at h
  split at h
  · cases h
  · split at h
    · cases h
    · split at h
      · cases h
      · rename_i hroom hlarge haligned
        exact ⟨Nat.not_lt.1 hroom, Nat.not_lt.1 hlarge,
          Nat.dvd_of_mod_eq_zero (Decidable.not_not.1 haligned)⟩

/-- The slots have as many addresses as the prefix leaves bits for. -/
theorem slotCount_mul_four (h : c.prefixLen.toNat ≤ 30) :
    4 * c.slotCount = 1 <<< (32 - c.prefixLen.toNat) := by
  rw [slotCount, if_neg (Nat.not_lt.2 h), Nat.one_shiftLeft, Nat.one_shiftLeft,
    show 32 - c.prefixLen.toNat = 30 - c.prefixLen.toNat + 2 by omega, Nat.pow_add, Nat.mul_comm]

/-- An aligned subnet reaches from its base to where the block after the last would begin. -/
theorem inSubnet_iff (h : c.validate = .ok ()) :
    c.InSubnet a ↔ c.slotBase 0 ≤ a.bits.toNat ∧ a.bits.toNat < c.slotBase c.slotCount := by
  obtain ⟨hroom, -, k, hbase⟩ := rules_of_validate h
  have hpos : 0 < 2 ^ (32 - c.prefixLen.toNat) := Nat.two_pow_pos _
  rw [InSubnet, Ipv4.SharesPrefix, Nat.shiftRight_eq_div_pow, Nat.shiftRight_eq_div_pow, slotBase,
    slotBase, slotCount_mul_four hroom, hbase, Nat.one_shiftLeft, Nat.mul_div_cancel_left _ hpos,
    Nat.div_eq_iff hpos, Nat.mul_comm k]
  omega

/-- A subnet ends at the latest with the last of all addresses. -/
theorem slotBase_slotCount_le (h : c.validate = .ok ()) : c.slotBase c.slotCount ≤ UInt32.size := by
  obtain ⟨hroom, -, k, hbase⟩ := rules_of_validate h
  have hpos : 0 < 2 ^ (32 - c.prefixLen.toNat) := Nat.two_pow_pos _
  have hsize : UInt32.size = 2 ^ (32 - c.prefixLen.toNat) * 2 ^ c.prefixLen.toNat := by
    rw [← Nat.pow_add, Nat.sub_add_cancel (by omega)]
  -- the base is a multiple of the size of the subnet, and so is the number of all addresses
  have hk : k < 2 ^ c.prefixLen.toNat := by
    refine Nat.lt_of_mul_lt_mul_left (a := 2 ^ (32 - c.prefixLen.toNat)) ?_
    rw [← Nat.one_shiftLeft (32 - c.prefixLen.toNat), ← hbase, Nat.one_shiftLeft, ← hsize]
    exact c.subnetBase.bits.toNat_lt
  calc c.slotBase c.slotCount
    _ = 2 ^ (32 - c.prefixLen.toNat) * (k + 1) := by
        rw [slotBase, slotCount_mul_four hroom, hbase, Nat.one_shiftLeft, Nat.mul_add, Nat.mul_one]
    _ ≤ 2 ^ (32 - c.prefixLen.toNat) * 2 ^ c.prefixLen.toNat := Nat.mul_le_mul_left _ hk
    _ = UInt32.size := hsize.symm

/-- Blocks begin at multiples of four. -/
theorem four_dvd_slotBase (h : c.validate = .ok ()) (n : Nat) : 4 ∣ c.slotBase n := by
  obtain ⟨hroom, -, haligned⟩ := rules_of_validate h
  refine Nat.dvd_add (Nat.dvd_trans ?_ haligned) (Nat.dvd_mul_right 4 n)
  rw [Nat.one_shiftLeft]
  exact Nat.pow_dvd_pow 2 (m := 2) (by omega)

/-- An address is told to be of a block by all but its lowest two bits. -/
theorem inBlock_iff (h : c.validate = .ok ()) :
    c.InBlock n a ↔ 4 * (a.bits.toNat / 4) = c.slotBase n := by
  obtain ⟨k, hk⟩ := four_dvd_slotBase h n
  rw [InBlock]
  omega

/-- A block is a network under the mask of a link. -/
theorem inBlock_iff_network {b : Ipv4} (h : c.validate = .ok ()) (hb : c.InBlock n b) :
    c.InBlock n a ↔ a.network NetworkInfo.netmask = b.network NetworkInfo.netmask := by
  rw [inBlock_iff h, ← (inBlock_iff h).1 hb]
  exact ⟨fun heq => Ipv4.ext_toNat (by rw [Ipv4.network_netmask, Ipv4.network_netmask, heq]),
    fun heq => by rw [← Ipv4.network_netmask, heq, Ipv4.network_netmask]⟩

/-- The lowest and the highest address of a block name no host. -/
theorem isHost_iff (h : c.validate = .ok ()) (ha : c.InBlock n a) :
    a ≠ a.network NetworkInfo.netmask ∧ a ≠ a.broadcast NetworkInfo.netmask ↔
      a.bits.toNat = c.slotBase n + 1 ∨ a.bits.toNat = c.slotBase n + 2 := by
  have hlow := (inBlock_iff h).1 ha
  have hnetwork : a = a.network NetworkInfo.netmask ↔ a.bits.toNat = c.slotBase n :=
    ⟨fun heq => by rw [heq, Ipv4.network_netmask, hlow],
      fun heq => Ipv4.ext_toNat (by rw [Ipv4.network_netmask, hlow, heq])⟩
  have hbroadcast : a = a.broadcast NetworkInfo.netmask ↔ a.bits.toNat = c.slotBase n + 3 :=
    ⟨fun heq => by rw [heq, Ipv4.broadcast_netmask, hlow],
      fun heq => Ipv4.ext_toNat (by rw [Ipv4.broadcast_netmask, hlow, heq])⟩
  rw [ne_eq, ne_eq, hnetwork, hbroadcast]
  rw [InBlock] at ha
  omega

/-- The addresses of an accepted configuration's slots do not wrap around. -/
theorem slotBase_add_lt (h : c.validate = .ok ()) (hn : n < c.slotCount) :
    c.slotBase n + 3 < UInt32.size := by
  have hend := slotBase_slotCount_le h
  rw [slotBase] at hend ⊢
  omega

theorem gateway_toNat (h : c.validate = .ok ()) (hn : n < c.slotCount) :
    (c.gateway n).bits.toNat = c.slotBase n + 1 :=
  Ipv4.bits_ofNat (Nat.lt_trans (by omega) (slotBase_add_lt h hn))

theorem guest_toNat (h : c.validate = .ok ()) (hn : n < c.slotCount) :
    (c.guest n).bits.toNat = c.slotBase n + 2 :=
  Ipv4.bits_ofNat (Nat.lt_trans (by omega) (slotBase_add_lt h hn))

/-- The addresses of the subnet are those of the slots' blocks. -/
theorem inSubnet_iff_inBlock (h : c.validate = .ok ()) :
    c.InSubnet a ↔ ∃ n < c.slotCount, c.InBlock n a := by
  rw [inSubnet_iff h]
  simp only [InBlock, slotBase]
  constructor
  · rintro ⟨hfrom, hto⟩
    exact ⟨(a.bits.toNat - c.subnetBase.bits.toNat) / 4, by omega, by omega, by omega⟩
  · rintro ⟨n, hn, hfrom, hto⟩
    omega

/-- The blocks of the slots tile the subnet of an accepted configuration. -/
theorem tiled_of_validate (h : c.validate = .ok ()) : c.Tiled where
  fits n hn := slotBase_add_lt h hn
  covers a := inSubnet_iff_inBlock h
  apart m _ n _ hne a hm hn := by
    simp only [InBlock, slotBase] at hm hn
    omega
  gateway n hn := gateway_toNat h hn
  guest n hn := guest_toNat h hn
  shared n hn a := by
    have hgateway := gateway_toNat h hn
    have hguest := guest_toNat h hn
    exact ⟨inBlock_iff_network h (by rw [InBlock]; omega),
      inBlock_iff_network h (by rw [InBlock]; omega)⟩
  hosts n hn a ha := by
    rw [isHost_iff h ha, ← gateway_toNat h hn, ← guest_toNat h hn]
    have heq : ∀ b : Ipv4, a = b ↔ a.bits.toNat = b.bits.toNat :=
      fun b => ⟨fun h => by rw [h], Ipv4.ext_toNat⟩
    rw [heq, heq]

/-- A subnet that ends with the last of all addresses. -/
def uppermost : NetworkConfig := { subnetBase := .ofOctets 255 255 255 0, prefixLen := 24 }

theorem tiled_uppermost : uppermost.validate = .ok () ∧ uppermost.Tiled ∧
    63 < uppermost.slotCount ∧ uppermost.slotBase 63 + 3 < UInt32.size := by
  have hvalid : uppermost.validate = .ok () := validate_eq_ok.2 (by decide +kernel)
  have htiled := tiled_of_validate hvalid
  have hlast : 63 < uppermost.slotCount := by decide +kernel
  exact ⟨hvalid, htiled, hlast, htiled.fits 63 hlast⟩

end NetworkConfig

end VmNode
