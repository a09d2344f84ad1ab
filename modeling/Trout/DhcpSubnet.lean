import Trout.DhcpAck
import Trout.NetlinkAttributes

/-! The address that the client gives to its interface: the prefix length and the broadcast address that
`Interface::setAddress` makes of a subnet mask. The mask is taken from the server as it is, and both are computed from
its bits, one from their number and one from their places. -/

namespace Trout.Dhcp
open RingWindow

/-! ### `interface.cpp` -/

def broadcastFromNetmask (address netmask : UInt32) : UInt32 := address ||| ~~~netmask

/-- `__builtin_popcount` -/
def builtinPopcount (x : UInt32) : Nat := (List.range 32).countP fun i => x.toNat.testBit i

/-- `struct ifaddrmsg`, as far as it is set. -/
structure Ifaddrmsg where
  ifaFamily : UInt8
  ifaPrefixlen : UInt8
  ifaIndex : UInt32

/-- `AF_INET`, `RTM_NEWADDR`, `NLM_F_REQUEST | NLM_F_ACK | NLM_F_CREATE | NLM_F_REPLACE` and the attribute types -/
def afInet : UInt8 := 2
def rtmNewaddr : UInt16 := 20
def newaddrFlags : UInt16 := 0x1 ||| 0x4 ||| 0x400 ||| 0x100
def ifaAddress : UInt16 := 1
def ifaLocal : UInt16 := 2
def ifaBroadcast : UInt16 := 4

/-- The request that `Interface::setAddress` sends. -/
def setAddressRequest (mIndex address subnetMask : UInt32) : Request Ifaddrmsg :=
  let request : Request Ifaddrmsg :=
    { hdr := ⟨ifaddrmsg.nlmsgLength, rtmNewaddr, newaddrFlags⟩
      msg := ⟨afInet, UInt8.ofNat (builtinPopcount subnetMask), mIndex⟩
      buf := fun _ => 0 }
  (addRouterAttributes ifaddrmsg request
    [⟨ifaAddress, bytes32 address⟩, ⟨ifaLocal, bytes32 address⟩,
      ⟨ifaBroadcast, bytes32 (broadcastFromNetmask address subnetMask)⟩]).1

/-! ### Host order -/

/-- `ntohl` -/
def ntohl (x : UInt32) : UInt32 :=
  x <<< 24 ||| ((x &&& (0xFF00 : UInt32)) <<< 8) ||| ((x >>> 8) &&& (0xFF00 : UInt32)) ||| x >>> 24

/-- The place of a bit of a word in network order, in host order and back. -/
def swapPlace (i : Nat) : Nat := 8 * (3 - i / 8) + i % 8

theorem ntohl_testBit (x : UInt32) {i : Nat} (h : i < 32) :
    (ntohl x).toNat.testBit i = x.toNat.testBit (swapPlace i) := by
  change (ntohl x).toBitVec.getLsbD i = x.toBitVec.getLsbD (swapPlace i)
  unfold ntohl swapPlace
  interval_cases i <;> simp

/-- The number that an address is in host order. -/
def hostOrder (address : UInt32) : Nat := (ntohl address).toNat

theorem swapPlace_lt {i : Nat} (h : i < 32) : swapPlace i < 32 := by
  rw [swapPlace]
  omega

/-- The broadcast address in host order: the bits of the address and those that the mask does not have. -/
theorem broadcast_testBit (address netmask : UInt32) {i : Nat} (h : i < 32) :
    (hostOrder (broadcastFromNetmask address netmask)).testBit i =
      ((hostOrder address).testBit i || !(hostOrder netmask).testBit i) := by
  have hnot : (~~~netmask).toNat.testBit (swapPlace i) = !netmask.toNat.testBit (swapPlace i) := by
    change (~~~netmask).toBitVec.getLsbD (swapPlace i) = !netmask.toBitVec.getLsbD (swapPlace i)
    simp [swapPlace_lt h]
  rw [hostOrder, hostOrder, hostOrder, ntohl_testBit _ h, ntohl_testBit _ h, ntohl_testBit _ h, broadcastFromNetmask,
    UInt32.toNat_or, Nat.testBit_or, hnot]

/-! ### Prefixes -/

/-- The greatest number with the upper digits of another one. -/
theorem isGreatest_prefix (a k b : Nat) :
    IsGreatest {x | x / 2 ^ k = a / 2 ^ k} b ↔ b = 2 ^ k * (a / 2 ^ k) + (2 ^ k - 1) := by
  have hpos : 0 < 2 ^ k := Nat.two_pow_pos k
  have hgreatest : IsGreatest {x | x / 2 ^ k = a / 2 ^ k} (2 ^ k * (a / 2 ^ k) + (2 ^ k - 1)) := by
    constructor
    · show (2 ^ k * (a / 2 ^ k) + (2 ^ k - 1)) / 2 ^ k = a / 2 ^ k
      rw [Nat.mul_add_div hpos, Nat.div_eq_of_lt (Nat.sub_lt hpos Nat.one_pos), Nat.add_zero]
    · intro x hx
      have hsplit := Nat.div_add_mod x (2 ^ k)
      have hlow := Nat.mod_lt x hpos
      rw [show x / 2 ^ k = a / 2 ^ k from hx] at hsplit
      omega
  constructor
  · exact fun h => h.unique hgreatest
  · rintro rfl
    exact hgreatest

theorem prefix_testBit (a k i : Nat) :
    (2 ^ k * (a / 2 ^ k) + (2 ^ k - 1)).testBit i = (decide (i < k) || a.testBit i) := by
  rw [Nat.testBit_two_pow_mul_add _ (Nat.sub_lt (Nat.two_pow_pos k) Nat.one_pos), Nat.testBit_two_pow_sub_one]
  by_cases hlow : i < k
  · simp [hlow]
  · rw [if_neg hlow, Nat.testBit_div_two_pow, Nat.sub_add_cancel (Nat.le_of_not_lt hlow)]
    simp [hlow]

/-! ### The subnet of a request -/

/-- The broadcast address of the request is the highest one that agrees with the address on the bits of the prefix. -/
def DescribesSubnet (address : UInt32) (r : Request Ifaddrmsg) : Prop :=
  ∃ broadcast, ⟨ifaBroadcast, bytes32 broadcast⟩ ∈ r.attributes ifaddrmsg ∧
    IsGreatest {x | x / 2 ^ (32 - r.msg.ifaPrefixlen.toNat) = hostOrder address / 2 ^ (32 - r.msg.ifaPrefixlen.toNat)}
      (hostOrder broadcast)

theorem builtinPopcount_le (x : UInt32) : builtinPopcount x ≤ 32 :=
  le_trans List.countP_le_length (by rw [List.length_range])

theorem bytes32_injective : Function.Injective bytes32 := by
  intro x y h
  have hx := load32_getD_bytes32 x []
  rw [h, load32_getD_bytes32 y []] at hx
  exact hx.symm

theorem setAddressRequest_attributes (mIndex address subnetMask : UInt32) :
    (setAddressRequest mIndex address subnetMask).attributes ifaddrmsg =
      [⟨ifaAddress, bytes32 address⟩, ⟨ifaLocal, bytes32 address⟩,
        ⟨ifaBroadcast, bytes32 (broadcastFromNetmask address subnetMask)⟩] := by
  have hword (type : UInt16) (x : UInt32) : (⟨type, bytes32 x⟩ : Attribute).alignedSize = 8 := by
    have hlength : (bytes32 x).length = 4 := rfl
    rw [Attribute.alignedSize, hlength]
    rfl
  apply addRouterAttributes_attributes ifaddrmsg_aligned rfl
  rw [alignedSizes_cons, alignedSizes_cons, alignedSizes_cons, hword, hword, hword]
  decide

theorem setAddressRequest_prefixlen (mIndex address subnetMask : UInt32) :
    (setAddressRequest mIndex address subnetMask).msg.ifaPrefixlen.toNat = builtinPopcount subnetMask := by
  have hle := builtinPopcount_le subnetMask
  rw [setAddressRequest, addRouterAttributes_msg]
  exact UInt8.toNat_ofNat_of_lt' (by simp only [UInt8.size]; omega)

/-- The request carries one broadcast address. -/
theorem mem_setAddressRequest_broadcast {mIndex address subnetMask broadcast : UInt32} :
    ⟨ifaBroadcast, bytes32 broadcast⟩ ∈ (setAddressRequest mIndex address subnetMask).attributes ifaddrmsg ↔
      broadcast = broadcastFromNetmask address subnetMask := by
  rw [setAddressRequest_attributes]
  simp [ifaBroadcast, ifaAddress, ifaLocal, bytes32_injective.eq_iff]

theorem hostOrder_testBit_of_ge (address : UInt32) {i : Nat} (h : 32 ≤ i) : (hostOrder address).testBit i = false :=
  Nat.testBit_lt_two_pow (lt_of_lt_of_le (ntohl address).toNat_lt (Nat.pow_le_pow_right (by decide) h))

/-- The bit of the address's highest neighbour is the one of the broadcast address when the mask has the bit that a
prefix has, or the address has the bit itself. -/
theorem highest_bit_iff (a m : Bool) (k i : Nat) :
    (a || !m) = (decide (i < k) || a) ↔ m = decide (k ≤ i) ∨ a = true := by
  by_cases hlow : i < k
  · cases a <;> cases m <;> simp [hlow]
  · cases a <;> cases m <;> simp [hlow, Nat.le_of_not_lt hlow]

/-- The mask with its first bits set, in network order. -/
def contiguousMask (p : Nat) : UInt32 := ntohl (UInt32.ofNat (2 ^ 32 - 2 ^ (32 - p)))

/-- Such a mask has its bits in front in host order, so that the condition says nothing of the address. -/
theorem contiguousMask_testBit {p i : Nat} (hp : p ≤ 32) (hi : i < 32) :
    (hostOrder (contiguousMask p)).testBit i = decide (32 - builtinPopcount (contiguousMask p) ≤ i) := by
  have hall : ∀ p < 33, ∀ i < 32,
      (hostOrder (contiguousMask p)).testBit i = decide (32 - builtinPopcount (contiguousMask p) ≤ i) := by decide +kernel
  exact hall p (Nat.lt_succ_of_le hp) i hi

/-- The prefix length and the broadcast address describe one subnet exactly when, in host order, the address has every
bit in which the mask differs from the one that has its bits in front; so they do when the mask is contiguous. -/
theorem subnet_described (mIndex address subnetMask : UInt32) :
    (DescribesSubnet address (setAddressRequest mIndex address subnetMask) ↔
      ∀ i < 32, (hostOrder subnetMask).testBit i = decide (32 - builtinPopcount subnetMask ≤ i) ∨
        (hostOrder address).testBit i = true) ∧
    ∀ p ≤ 32, subnetMask = contiguousMask p → DescribesSubnet address (setAddressRequest mIndex address subnetMask) := by
  have hdescribes : DescribesSubnet address (setAddressRequest mIndex address subnetMask) ↔
      ∀ i < 32, (hostOrder subnetMask).testBit i = decide (32 - builtinPopcount subnetMask ≤ i) ∨
        (hostOrder address).testBit i = true := by
    rw [DescribesSubnet]
    simp only [mem_setAddressRequest_broadcast, exists_eq_left, setAddressRequest_prefixlen, isGreatest_prefix]
    constructor
    · intro h i hi
      apply (highest_bit_iff _ _ _ _).mp
      rw [← broadcast_testBit _ _ hi, h, prefix_testBit]
    · intro h
      apply Nat.eq_of_testBit_eq
      intro i
      rw [prefix_testBit]
      by_cases hi : i < 32
      · rw [broadcast_testBit _ _ hi]
        exact (highest_bit_iff _ _ _ _).mpr (h i hi)
      · rw [hostOrder_testBit_of_ge _ (Nat.le_of_not_lt hi), hostOrder_testBit_of_ge _ (Nat.le_of_not_lt hi)]
        simp only [Bool.or_false]
        exact (decide_eq_false (by omega)).symm
  refine ⟨hdescribes, fun p hp hcontiguous => hdescribes.mpr fun i hi => Or.inl ?_⟩
  rw [hcontiguous]
  exact contiguousMask_testBit hp hi

/-- The address 10.0.2.15 with the mask 255.0.255.0: the prefix is 10.0, and the broadcast address 10.255.2.255 does not
have it. -/
theorem broadcast_outside :
    (setAddressRequest 2 (ntohl 0x0A00020F) (ntohl 0xFF00FF00)).msg.ifaPrefixlen = 16 ∧
      hostOrder (broadcastFromNetmask (ntohl 0x0A00020F) (ntohl 0xFF00FF00)) = 0x0AFF02FF ∧
      ¬ DescribesSubnet (ntohl 0x0A00020F) (setAddressRequest 2 (ntohl 0x0A00020F) (ntohl 0xFF00FF00)) := by
  have hprefix : builtinPopcount (ntohl 0xFF00FF00) = 16 := by decide +kernel
  have hbroadcast : hostOrder (broadcastFromNetmask (ntohl 0x0A00020F) (ntohl 0xFF00FF00)) = 0x0AFF02FF := by decide +kernel
  refine ⟨?_, hbroadcast, ?_⟩
  · apply UInt8.toNat_inj.mp
    rw [setAddressRequest_prefixlen, hprefix]
    rfl
  · rintro ⟨broadcast, hmem, hinside, -⟩
    obtain rfl := mem_setAddressRequest_broadcast.mp hmem
    rw [Set.mem_ofPred_eq, setAddressRequest_prefixlen, hprefix, hbroadcast] at hinside
    exact absurd hinside (by decide +kernel)

end Trout.Dhcp
