import Trout.DhcpChecksum

/-! The checksum that `sendRawUdp` puts into the UDP header. It is the complement of the sum, and nothing replaces a
complement of zero, which to a receiver says that there is no checksum. -/

namespace Trout.Dhcp
open OnesComplement

section
variable (source : UInt32) (sourcePort : UInt16) (destination : UInt32) (destinationPort : UInt16)

/-- The octets that the checksum of a message is about: the pseudo header, the UDP header with no checksum, and the
message. -/
def udpOctets (message : Message) : List UInt8 :=
  let len := htons (UInt16.ofNat (udpSize + message.mSize))
  bytes32 source ++ bytes32 destination ++ [0, ipProtoUdp] ++ bytes16 len ++
    (bytes16 (htons sourcePort) ++ bytes16 (htons destinationPort) ++ bytes16 len ++ [0, 0]) ++ message.payload

variable (interfaceIndex : UInt32) {message : Message}

/-- They are what the calls of `addChecksum` add up. -/
theorem udpPieces_octets :
    (udpPieces (sendRawUdp source sourcePort destination destinationPort interfaceIndex message).ip
      (sendRawUdp source sourcePort destination destinationPort interfaceIndex message).udp.unchecked message).flatten =
        udpOctets source sourcePort destination destinationPort message := by
  have hprotocol : bytes16 (htons ipProtoUdp.toUInt16) = [0, ipProtoUdp] := rfl
  simp only [udpPieces, sendRawUdp, UdpHeader.unchecked, UdpHeader.bytes, hprotocol, udpOctets, List.flatten_cons,
    List.flatten_nil, List.append_assoc, List.append_nil]
  rfl

/-- The checksum is the complement of the sum. -/
theorem sendRawUdp_check (hsize : message.mSize ≤ messageCapacity) :
    (sendRawUdp source sourcePort destination destinationPort interfaceIndex message).udp.check.toNat =
      65535 - OnesComplement.sum 65535 (leWords (udpOctets source sourcePort destination destinationPort message)) := by
  rw [sendRawUdp_udp]
  dsimp only
  rw [finishChecksum_toNat (addChecksums_le _), addChecksums_toNat (udpPieces_length hsize), udpPieces_sum,
    udpPieces_octets, sum_eq_reduce (by decide) (leWords_le _)]

/-- The checksum that is sent is not zero exactly when the sum of the octets, as words in network order, is not the
second zero. -/
theorem sendRawUdp_check_ne_zero (hsize : message.mSize ≤ messageCapacity) :
    (sendRawUdp source sourcePort destination destinationPort interfaceIndex message).udp.check ≠ 0 ↔
      OnesComplement.sum 65535 (beWords (udpOctets source sourcePort destination destinationPort message)) ≠ 0xFFFF := by
  have hle : OnesComplement.sum 65535 (leWords (udpOctets source sourcePort destination destinationPort message)) ≤ 65535 := by
    rw [sum_eq_reduce (by decide) (leWords_le _)]
    exact reduce_le (by decide) _
  rw [ne_eq, ne_eq, not_iff_not, ← UInt16.toNat_inj, sendRawUdp_check _ _ _ _ _ hsize, sum_beWords_eq_max_iff,
    UInt16.toNat_zero]
  omega

end

/-- A message of one byte has a checksum. -/
theorem sendRawUdp_check_odd : (sendRawUdp 1 68 2 67 0 ⟨fun _ => 0xFF, 1⟩).udp.check ≠ 0 :=
  (sendRawUdp_check_ne_zero 1 68 2 67 0 (by decide)).mpr (by decide)

/-- A broadcast discovery whose checksum is sent as zero. -/
theorem discovery_unchecked :
    (Message.discover #v[2, 0, 0, 0, 0, 1] 2759).mSize ≤ messageCapacity ∧
      (sendRawUdp 0 68 0xFFFFFFFF 67 0 (Message.discover #v[2, 0, 0, 0, 0, 1] 2759)).udp.check = 0 := by
  have hsize : (Message.discover #v[2, 0, 0, 0, 0, 1] 2759).mSize ≤ messageCapacity := by decide +kernel
  have hsum : OnesComplement.sum 65535
      (leWords (udpOctets 0 68 0xFFFFFFFF 67 (Message.discover #v[2, 0, 0, 0, 0, 1] 2759))) = 65535 := by
    decide +kernel
  refine ⟨hsize, ?_⟩
  rw [← UInt16.toNat_inj, sendRawUdp_check 0 68 0xFFFFFFFF 67 0 hsize, hsum]
  rfl

end Trout.Dhcp
