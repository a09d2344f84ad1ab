import Trout.DhcpOptions
import Trout.DhcpSocket

/-! The receiver of raw UDP undoes the sender: what `sendRawUdp` gathers from its three buffers, `receiveRawUdp`
scatters over its own, and it takes a datagram for valid exactly when the ports agree. -/

namespace Trout.Dhcp
open RingWindow

/-! ### Half words -/

theorem load16_bytes16 (x : UInt16) : x.toUInt8.toUInt16 ||| (x >>> 8).toUInt8.toUInt16 <<< 8 = x := by
  apply UInt16.eq_of_toBitVec_eq
  ext i hi
  simp only [UInt16.toBitVec_or, UInt16.toBitVec_shiftLeft, UInt8.toBitVec_toUInt16, UInt16.toBitVec_toUInt8,
    UInt16.toBitVec_shiftRight, UInt16.toBitVec_ofNat, BitVec.ofNat_eq_ofNat, BitVec.reduceMod,
    BitVec.ushiftRight_eq', BitVec.toNat_ofNat, Nat.reducePow, Nat.reduceMod, BitVec.shiftLeft_eq', BitVec.getElem_or,
    BitVec.getElem_setWidth, BitVec.getLsbD_setWidth, BitVec.getElem_shiftLeft, BitVec.getLsbD_ushiftRight]
  grind

theorem htons_htons (x : UInt16) : htons (htons x) = x := by
  apply UInt16.eq_of_toBitVec_eq
  ext i hi
  simp only [htons, UInt16.toBitVec_or, UInt16.toBitVec_shiftLeft, UInt16.toBitVec_shiftRight, UInt16.toBitVec_ofNat,
    BitVec.ofNat_eq_ofNat, BitVec.reduceMod, BitVec.ushiftRight_eq', BitVec.toNat_ofNat, Nat.reducePow, Nat.reduceMod,
    BitVec.shiftLeft_eq', BitVec.getElem_or, BitVec.getElem_shiftLeft, BitVec.getElem_ushiftRight, BitVec.getLsbD_or,
    BitVec.getLsbD_shiftLeft, BitVec.getLsbD_ushiftRight]
  grind

theorem htons_inj {x y : UInt16} : htons x = htons y ↔ x = y := by
  constructor
  · intro h
    rw [← htons_htons x, h, htons_htons]
  · exact congrArg htons

/-! ### The datagram -/

section
variable (source : UInt32) (sourcePort : UInt16) (destination : UInt32) (destinationPort : UInt16)
  (interfaceIndex : UInt32) (m : Message)

theorem length_sent : (sendRawUdp source sourcePort destination destinationPort interfaceIndex m).bytes.length =
    ipSize + udpSize + m.mSize := by
  rw [RawUdp.bytes, List.length_append, List.length_append, ← Nat.add_assoc]
  show 20 + 8 + m.payload.length = _
  rw [Message.payload, slice_length]
  rfl

theorem drop_sent : (sendRawUdp source sourcePort destination destinationPort interfaceIndex m).bytes.drop
    (ipSize + udpSize) = m.payload := by
  rw [RawUdp.bytes, ← List.append_assoc]
  apply List.drop_left'
  rfl

/-- The headers that arrive are for the port of the destination. -/
theorem header_sent (port : UInt16) :
    let mem := fun a => (sendRawUdp source sourcePort destination destinationPort interfaceIndex m).bytes.getD a 0
    ((IpHeader.load mem).version == ipVersion && (IpHeader.load mem).ihl == UInt8.ofNat (ipSize / 4) &&
      (IpHeader.load mem).protocol == ipProtoUdp && (UdpHeader.load mem ipSize).dest == htons port) = true ↔
      port = destinationPort := by
  intro mem
  have hfirst : mem 0 = UInt8.ofNat (ipSize / 4) ||| ipVersion <<< 4 := rfl
  have hversion : (IpHeader.load mem).version = ipVersion := by
    show mem 0 >>> 4 = ipVersion
    rw [hfirst]
    decide
  have hihl : (IpHeader.load mem).ihl = UInt8.ofNat (ipSize / 4) := by
    show mem 0 &&& 0xF = UInt8.ofNat (ipSize / 4)
    rw [hfirst]
    decide
  have hprotocol : (IpHeader.load mem).protocol = ipProtoUdp := rfl
  have hdest : (UdpHeader.load mem ipSize).dest = htons destinationPort := load16_bytes16 (htons destinationPort)
  rw [hversion, hihl, hprotocol, hdest]
  simp only [beq_self_eq_true, Bool.true_and, beq_iff_eq, htons_inj]
  exact eq_comm

end

/-- The receiver has the message that was sent, and knows whether it was for its port. -/
structure Delivered (m m' : Message) (valid : Bool) (port expectedPort : UInt16) : Prop where
  valid : valid = true ↔ expectedPort = port
  size : m'.mSize = m.mSize
  data : m'.payload = m.payload

theorem receive_sent (source : UInt32) (sourcePort : UInt16) (destination : UInt32) (destinationPort : UInt16)
    (interfaceIndex : UInt32) {m : Message} (hsize : m.mSize ≤ messageCapacity) (expectedPort : UInt16) (message : Message) :
    ∃ m' valid, receiveRawUdp expectedPort message
        (some (sendRawUdp source sourcePort destination destinationPort interfaceIndex m).bytes) = some (m', valid) ∧
      Delivered m m' valid destinationPort expectedPort := by
  have hlength := length_sent source sourcePort destination destinationPort interfaceIndex m
  have htake : (sendRawUdp source sourcePort destination destinationPort interfaceIndex m).bytes.take
      (ipSize + udpSize + messageCapacity) =
        (sendRawUdp source sourcePort destination destinationPort interfaceIndex m).bytes :=
    List.take_of_length_le (by omega)
  rw [receiveRawUdp, Option.map_some]
  dsimp only
  rw [htake, drop_sent, hlength, if_neg (by omega)]
  refine ⟨_, _, rfl, ?_, ?_, ?_⟩
  · exact header_sent source sourcePort destination destinationPort interfaceIndex m expectedPort
  · show ipSize + udpSize + m.mSize - ipSize - udpSize = m.mSize
    omega
  · have hpayload : m.payload.length = m.mSize := slice_length _ _ _
    show slice (poke message.dhcpData 0 m.payload) 0 (ipSize + udpSize + m.mSize - ipSize - udpSize) = m.payload
    rw [show ipSize + udpSize + m.mSize - ipSize - udpSize = m.payload.length by omega]
    exact slice_poke_self _ _ _

/-- Whatever is delivered, a valid message is the octets that have been read behind two headers, and fits. -/
theorem receive_valid {expectedPort : UInt16} {message m' : Message} {datagram : List UInt8}
    (h : receiveRawUdp expectedPort message (some datagram) = some (m', true)) :
    let bytesRead := min datagram.length (ipSize + udpSize + messageCapacity)
    m'.mSize ≤ messageCapacity ∧ ipSize + udpSize ≤ bytesRead ∧ m'.mSize = bytesRead - (ipSize + udpSize) ∧
      m'.payload = (datagram.drop (ipSize + udpSize)).take messageCapacity := by
  intro bytesRead
  rw [receiveRawUdp, Option.map_some, Option.some.injEq] at h
  dsimp only at h
  rw [List.length_take, Nat.min_comm] at h
  split at h
  · cases h
  · rename_i hlong
    obtain ⟨rfl, -⟩ := Prod.mk.inj h
    refine ⟨?_, Nat.le_of_not_lt hlong, Nat.sub_sub _ _ _, ?_⟩
    · show min datagram.length (ipSize + udpSize + messageCapacity) - ipSize - udpSize ≤ messageCapacity
      omega
    · have hdrop : (datagram.take (ipSize + udpSize + messageCapacity)).drop (ipSize + udpSize) =
          (datagram.drop (ipSize + udpSize)).take messageCapacity := by
        rw [List.drop_take, Nat.add_sub_cancel_left]
      have hlength : ((datagram.drop (ipSize + udpSize)).take messageCapacity).length =
          min datagram.length (ipSize + udpSize + messageCapacity) - ipSize - udpSize := by
        rw [List.length_take, List.length_drop]
        omega
      show slice (poke message.dhcpData 0 _) 0 (min datagram.length (ipSize + udpSize + messageCapacity) - ipSize - udpSize) = _
      rw [hdrop, ← hlength]
      exact slice_poke_self _ _ _

/-- The receiver undoes the sender, and is safe with anything else. -/
theorem receiveRawUdp_sendRawUdp (expectedPort : UInt16) (message : Message) :
    (∀ source sourcePort destination destinationPort interfaceIndex (m : Message), m.mSize ≤ messageCapacity →
      ∃ m' valid, receiveRawUdp expectedPort message
          (some (sendRawUdp source sourcePort destination destinationPort interfaceIndex m).bytes) = some (m', valid) ∧
        Delivered m m' valid destinationPort expectedPort) ∧
      ∀ datagram m', receiveRawUdp expectedPort message (some datagram) = some (m', true) →
        m'.mSize ≤ messageCapacity ∧ ipSize + udpSize ≤ min datagram.length (ipSize + udpSize + messageCapacity) ∧
          m'.mSize = min datagram.length (ipSize + udpSize + messageCapacity) - (ipSize + udpSize) ∧
          m'.payload = (datagram.drop (ipSize + udpSize)).take messageCapacity :=
  ⟨fun source sourcePort destination destinationPort interfaceIndex _ hsize =>
    receive_sent source sourcePort destination destinationPort interfaceIndex hsize expectedPort message,
    fun _ _ h => receive_valid h⟩

/-- A datagram of three bytes for port 67, received on port 68. -/
theorem receiveRawUdp_sendRawUdp_otherPort :
    ∃ m' valid, receiveRawUdp 68 .zero (some (sendRawUdp 1 68 2 67 0 ⟨fun _ => 7, 3⟩).bytes) = some (m', valid) ∧
      Delivered ⟨fun _ => 7, 3⟩ m' valid 67 68 :=
  (receiveRawUdp_sendRawUdp 68 .zero).1 1 68 2 67 0 ⟨fun _ => 7, 3⟩ (by decide)

end Trout.Dhcp
