import Trout.DhcpMessage
import Trout.OnesComplement

/-! The raw UDP of `socket.cpp`: checksums, the headers as they lie in memory, and the datagrams that `sendRawUdp`
gathers from its buffers and `receiveRawUdp` scatters over them. -/

namespace Trout.Dhcp
open RingWindow

/-! ### Checksums -/

/-- The words of the buffer, and the last byte of an odd one, added to the checksum. -/
def accumulate : List UInt8 → UInt32 → UInt32
  | low :: high :: rest, checksum => accumulate rest (checksum + (low.toUInt32 ||| high.toUInt32 <<< 8))
  | [last], checksum => checksum + last.toUInt32
  | [], checksum => checksum

theorem msw_toNat (checksum : UInt32) : (checksum >>> 16).toNat = checksum.toNat / 65536 :=
  (UInt32.toNat_shiftRight checksum 16).trans (Nat.shiftRight_eq_div_pow checksum.toNat 16)

theorem carry_toNat (checksum : UInt32) :
    ((checksum &&& (0xFFFF : UInt32)) + (checksum >>> 16)).toNat = OnesComplement.carry 65535 checksum.toNat := by
  have hlow : (checksum &&& (0xFFFF : UInt32)).toNat = checksum.toNat % 65536 :=
    (UInt32.toNat_and checksum 0xFFFF).trans (Nat.and_two_pow_sub_one_eq_mod checksum.toNat 16)
  have hlt := checksum.toNat_lt
  rw [UInt32.toNat_add, hlow, msw_toNat, OnesComplement.carry]
  omega

/-- The loop that folds the upper half of the checksum into the lower one. -/
def foldChecksum (checksum : UInt32) : UInt32 :=
  let msw := checksum >>> 16
  if msw = 0 then checksum else foldChecksum ((checksum &&& (0xFFFF : UInt32)) + msw)
termination_by checksum.toNat
decreasing_by
  rename_i hmsw
  rw [carry_toNat]
  apply OnesComplement.carry_lt (by decide)
  by_contra hsmall
  apply hmsw
  apply UInt32.toNat_inj.mp
  rw [msw_toNat, UInt32.toNat_zero]
  omega

def addChecksum (buffer : List UInt8) (checksum : UInt32) : UInt32 := foldChecksum (accumulate buffer checksum)

def finishChecksum (checksum : UInt32) : UInt32 := ~~~checksum &&& 0xFFFF

/-! ### Headers -/

/-- The bytes of a half word as it lies in memory. -/
def bytes16 (x : UInt16) : List UInt8 := [x.toUInt8, (x >>> 8).toUInt8]

def htons (x : UInt16) : UInt16 := x <<< 8 ||| x >>> 8

/-- `*reinterpret_cast<const uint16_t*>` -/
def load16 (mem : Nat → UInt8) (i : Nat) : UInt16 := (mem i).toUInt16 ||| (mem (i + 1)).toUInt16 <<< 8

def ipVersion : UInt8 := 4
def ipDefTtl : UInt8 := 64
def ipProtoUdp : UInt8 := 17

/-- `struct iphdr`; `version` and `ihl` are bit-fields of one byte. -/
structure IpHeader where
  version : UInt8
  ihl : UInt8
  tos : UInt8
  totLen : UInt16
  id : UInt16
  fragOff : UInt16
  ttl : UInt8
  protocol : UInt8
  check : UInt16
  saddr : UInt32
  daddr : UInt32

/-- `sizeof(struct iphdr)` and `sizeof(struct udphdr)` -/
def ipSize : Nat := 20
def udpSize : Nat := 8

/-- The bytes of the header; the bit-field that is declared first lies in the lower half. -/
def IpHeader.bytes (ip : IpHeader) : List UInt8 :=
  [ip.ihl ||| ip.version <<< 4, ip.tos] ++ bytes16 ip.totLen ++ bytes16 ip.id ++ bytes16 ip.fragOff ++
    [ip.ttl, ip.protocol] ++ bytes16 ip.check ++ bytes32 ip.saddr ++ bytes32 ip.daddr

def IpHeader.load (mem : Nat → UInt8) : IpHeader where
  version := mem 0 >>> 4
  ihl := mem 0 &&& 0xF
  tos := mem 1
  totLen := load16 mem 2
  id := load16 mem 4
  fragOff := load16 mem 6
  ttl := mem 8
  protocol := mem 9
  check := load16 mem 10
  saddr := load32 mem 12
  daddr := load32 mem 16

/-- `struct udphdr` -/
structure UdpHeader where
  source : UInt16
  dest : UInt16
  len : UInt16
  check : UInt16

def UdpHeader.bytes (udp : UdpHeader) : List UInt8 :=
  bytes16 udp.source ++ bytes16 udp.dest ++ bytes16 udp.len ++ bytes16 udp.check

def UdpHeader.load (mem : Nat → UInt8) (i : Nat) : UdpHeader :=
  ⟨load16 mem i, load16 mem (i + 2), load16 mem (i + 4), load16 mem (i + 6)⟩

/-! ### `sendRawUdp` -/

/-- `AF_PACKET` and `ETH_P_IP` -/
def afPacket : UInt16 := 17
def ethPIp : UInt16 := 0x0800

/-- `struct sockaddr_ll`, as far as it is set; the rest is zero. -/
structure SockaddrLl where
  sllFamily : UInt16
  sllProtocol : UInt16
  sllIfindex : UInt32
  sllHalen : UInt8
  sllAddr : List UInt8

/-- What `sendmsg` is called with: the address, and the three buffers. -/
structure RawUdp where
  dest : SockaddrLl
  ip : IpHeader
  udp : UdpHeader
  payload : List UInt8

/-- The buffers as `sendmsg` gathers them. -/
def RawUdp.bytes (datagram : RawUdp) : List UInt8 := datagram.ip.bytes ++ (datagram.udp.bytes ++ datagram.payload)

/-- `data()`, `size()` bytes of it -/
def Message.payload (m : Message) : List UInt8 := slice m.dhcpData 0 m.mSize

/-- The buffers of which `sendRawUdp` adds up the checksum of a UDP header without one. -/
def udpPieces (ip : IpHeader) (udp : UdpHeader) (message : Message) : List (List UInt8) :=
  [bytes32 ip.saddr, bytes32 ip.daddr, bytes16 (htons ipProtoUdp.toUInt16), bytes16 udp.len, udp.bytes, message.payload]

/-- One call of `addChecksum` after the other, on the checksum so far. -/
def addChecksums (pieces : List (List UInt8)) : UInt32 := pieces.foldl (fun checksum piece => addChecksum piece checksum) 0

def sendRawUdp (source : UInt32) (sourcePort : UInt16) (destination : UInt32) (destinationPort : UInt16)
    (interfaceIndex : UInt32) (message : Message) : RawUdp :=
  let ip : IpHeader :=
    { version := ipVersion
      ihl := UInt8.ofNat (ipSize / 4)
      tos := 0
      totLen := htons (UInt16.ofNat (ipSize + udpSize + message.mSize))
      id := 0
      fragOff := 0
      ttl := ipDefTtl
      protocol := ipProtoUdp
      check := 0
      saddr := source
      daddr := destination }
  let udp : UdpHeader :=
    { source := htons sourcePort
      dest := htons destinationPort
      len := htons (UInt16.ofNat (udpSize + message.mSize))
      check := 0 }
  { dest := ⟨afPacket, htons ethPIp, interfaceIndex, ethAlen, List.replicate 6 0xFF⟩
    ip := { ip with check := (finishChecksum (addChecksum ip.bytes 0)).toUInt16 }
    udp := { udp with check := (finishChecksum (addChecksums (udpPieces ip udp message))).toUInt16 }
    payload := message.payload }

/-! ### `receiveRawUdp` -/

/-- The message and `isValid` after the call, or an error of `readv`; the octets of the datagram are scattered
over the headers and the message, those that do not fit are lost. -/
def receiveRawUdp (expectedPort : UInt16) (message : Message) (read : Option (List UInt8)) : Option (Message × Bool) :=
  read.map fun datagram =>
    let received := datagram.take (ipSize + udpSize + messageCapacity)
    let bytesRead := received.length
    if bytesRead < ipSize + udpSize then (message, false)
    else
      let ip := IpHeader.load (received.getD · 0)
      let udp := UdpHeader.load (received.getD · 0) ipSize
      let isValid := ip.version == ipVersion && ip.ihl == UInt8.ofNat (ipSize / 4) && ip.protocol == ipProtoUdp &&
        udp.dest == htons expectedPort
      (⟨poke message.dhcpData 0 (received.drop (ipSize + udpSize)), bytesRead - ipSize - udpSize⟩, isValid)

/-! ### The ports of `dhcp.h` -/

/-- `PORT_BOOTP_SERVER` and `PORT_BOOTP_CLIENT` -/
def portBootpServer : UInt16 := 67
def portBootpClient : UInt16 := 68

/-- The message that a receiver at the port gets into an empty `Message`, if it is valid. -/
def receivedAt (expectedPort : UInt16) (read : Option (List UInt8)) : Option Message :=
  match receiveRawUdp expectedPort .zero read with
  | some (message, true) => some message
  | _ => none

/-- The message that `receiveDhcpMessage` goes on with. -/
def receivedMessage (read : Option (List UInt8)) : Option Message := receivedAt portBootpClient read

end Trout.Dhcp
