import Trout.RingWindow

/-! DHCP messages of `message.cpp`: the bytes of `struct Dhcp` and the message's size, the options behind
the cookie, the encoder and the lookup. The machine is little-endian; `in_addr_t` and `xid` stay in
network order, as the source keeps them. -/

namespace Trout.Dhcp
open RingWindow

/-! ### `dhcp.h` -/

def opBootRequest : UInt8 := 1
def opBootReply : UInt8 := 2
def flagsBroadcast : UInt16 := 0x8000
def htypeEther : UInt8 := 1
def ethAlen : UInt8 := 6

/-- `OPT_COOKIE1` to `OPT_COOKIE4` -/
def optCookie : List UInt8 := [0x63, 0x82, 0x53, 0x63]

def optPad : UInt8 := 0
def optSubnetMask : UInt8 := 1
def optGateway : UInt8 := 3
def optDns : UInt8 := 6
def optMtu : UInt8 := 26
def optBroadcastAddr : UInt8 := 28
def optRequestedIp : UInt8 := 50
def optLeaseTime : UInt8 := 51
def optMessageType : UInt8 := 53
def optServerId : UInt8 := 54
def optParameterList : UInt8 := 55
def optT1 : UInt8 := 58
def optT2 : UInt8 := 59
def optEnd : UInt8 := 255

def dhcpDiscover : UInt8 := 1
def dhcpOffer : UInt8 := 2
def dhcpRequest : UInt8 := 3
def dhcpAck : UInt8 := 5
def dhcpNak : UInt8 := 6

def inaddrBroadcast : UInt32 := 0xFFFFFFFF

/-! ### Bytes -/

/-- `*reinterpret_cast<const uint32_t*>` -/
def load32 (mem : Nat → UInt8) (i : Nat) : UInt32 :=
  (mem i).toUInt32 ||| (mem (i + 1)).toUInt32 <<< 8 ||| (mem (i + 2)).toUInt32 <<< 16 ||| (mem (i + 3)).toUInt32 <<< 24

/-- `ntohl` of a word in memory -/
def netLoad32 (mem : Nat → UInt8) (i : Nat) : UInt32 :=
  (mem i).toUInt32 <<< 24 ||| (mem (i + 1)).toUInt32 <<< 16 ||| (mem (i + 2)).toUInt32 <<< 8 ||| (mem (i + 3)).toUInt32

/-- `ntohs` of a half word in memory -/
def netLoad16 (mem : Nat → UInt8) (i : Nat) : UInt16 :=
  (mem i).toUInt16 <<< 8 ||| (mem (i + 1)).toUInt16

/-- The bytes of a word as it lies in memory. -/
def bytes32 (x : UInt32) : List UInt8 := [x.toUInt8, (x >>> 8).toUInt8, (x >>> 16).toUInt8, (x >>> 24).toUInt8]

/-- The bytes of `htonl(x)`. -/
def netBytes32 (x : UInt32) : List UInt8 := (bytes32 x).reverse

/-- The bytes of `htons(x)`. -/
def netBytes16 (x : UInt16) : List UInt8 := [(x >>> 8).toUInt8, x.toUInt8]

/-- Writes the bytes from `start` on. -/
def poke (mem : Nat → UInt8) (start : Nat) (bytes : List UInt8) : Nat → UInt8 :=
  fun a => if start ≤ a then bytes.getD (a - start) (mem a) else mem a

/-! ### The message -/

/-- The offsets in `struct Dhcp`, and its size. -/
def xidOffset : Nat := 4
def flagsOffset : Nat := 10
def yiaddrOffset : Nat := 16
def giaddrOffset : Nat := 24
def chaddrOffset : Nat := 28
def optionsOffset : Nat := 236
def messageCapacity : Nat := 1260

structure Message where
  dhcpData : Nat → UInt8
  mSize : Nat

/-- `Message::Message()` -/
def Message.zero : Message := ⟨fun _ => 0, 0⟩

namespace Message

def xid (m : Message) : UInt32 := load32 m.dhcpData xidOffset

def yiaddr (m : Message) : UInt32 := load32 m.dhcpData yiaddrOffset

/-- `dhcpData.options[i]` -/
def options (m : Message) (i : Nat) : UInt8 := m.dhcpData (optionsOffset + i)

def optionsSize (m : Message) : Nat := m.mSize - optionsOffset

/-- Bytes put down at `nextOption()`. -/
def append (m : Message) (bytes : List UInt8) : Message :=
  ⟨poke m.dhcpData m.mSize bytes, m.mSize + bytes.length⟩

/-- `Message::Message(operation, macAddress, type)`, with the value of `sNextTransactionId`. -/
def make (operation : UInt8) (macAddress : Vector UInt8 6) (type : UInt8) (transactionId : UInt32) : Message :=
  let header := poke (fun _ => 0) 0 [operation, htypeEther, ethAlen, 0]
  let withXid := poke header xidOffset (netBytes32 transactionId)
  let withFlags := poke withXid flagsOffset (netBytes16 flagsBroadcast)
  let withMac := poke withFlags chaddrOffset macAddress.toList
  append ⟨withMac, optionsOffset⟩ (optCookie ++ [optMessageType, 1, type])

/-- `addOption`; the size is a `uint8_t`. -/
def addOption (m : Message) (type : UInt8) (data : List UInt8) : Message :=
  let size := UInt8.ofNat data.length
  m.append (type :: size :: data.take size.toNat)

def endOptions (m : Message) : Message := m.append [optEnd]

/-- `kRequestParameters` -/
def requestParameters : List UInt8 :=
  [optSubnetMask, optGateway, optDns, optBroadcastAddr, optLeaseTime, optT1, optT2, optMtu]

def discover (sourceMac : Vector UInt8 6) (transactionId : UInt32) : Message :=
  ((make opBootRequest sourceMac dhcpDiscover transactionId).addOption optParameterList requestParameters).endOptions

def request (sourceMac : Vector UInt8 6) (transactionId : UInt32) (requestAddress serverAddress : UInt32) : Message :=
  ((((make opBootRequest sourceMac dhcpRequest transactionId).addOption optParameterList requestParameters).addOption
    optRequestedIp (bytes32 requestAddress)).addOption optServerId (bytes32 serverAddress)).endOptions

/-- `message.dhcpData.field = sourceMessage.dhcpData.field;` for the field at an offset. -/
def copyField (m sourceMessage : Message) (offset size : Nat) : Message :=
  { m with dhcpData := poke m.dhcpData offset (slice sourceMessage.dhcpData offset size) }

/-- `macAddress` of a reply -/
def sourceMac (m : Message) : Vector UInt8 6 := .ofFn fun i => m.dhcpData (chaddrOffset + i)

/-- `kDefaultLeaseTime`, in seconds -/
def defaultLeaseTime : UInt32 := 10 * 60

/-- The common body of `offer` and `ack`. -/
def lease (type : UInt8) (sourceMessage : Message)
    (serverAddress offeredAddress offeredNetmask offeredGateway : UInt32) (offeredDnsServers : List UInt32)
    (transactionId : UInt32) : Message :=
  let message := make opBootReply sourceMessage.sourceMac type transactionId
  let identified := (message.copyField sourceMessage xidOffset 4).copyField sourceMessage flagsOffset 2
  let offered := { identified with dhcpData := poke identified.dhcpData yiaddrOffset (bytes32 offeredAddress) }
  let headed := offered.copyField sourceMessage giaddrOffset 4
  (((((headed.addOption optServerId (bytes32 serverAddress)).addOption optLeaseTime (bytes32 defaultLeaseTime)).addOption
    optSubnetMask (bytes32 offeredNetmask)).addOption optGateway (bytes32 offeredGateway)).addOption
    optDns (offeredDnsServers.flatMap bytes32)).endOptions

def offer : Message → UInt32 → UInt32 → UInt32 → UInt32 → List UInt32 → UInt32 → Message := lease dhcpOffer

def ack : Message → UInt32 → UInt32 → UInt32 → UInt32 → List UInt32 → UInt32 → Message := lease dhcpAck

def nack (sourceMessage : Message) (serverAddress : UInt32) (transactionId : UInt32) : Message :=
  let message := make opBootReply sourceMessage.sourceMac dhcpNak transactionId
  let headed := ((message.copyField sourceMessage xidOffset 4).copyField sourceMessage flagsOffset 2).copyField
    sourceMessage giaddrOffset 4
  (headed.addOption optServerId (bytes32 serverAddress)).endOptions

/-- `isValidDhcpMessage(expectedOp)` -/
def isValidDhcpMessageOp (m : Message) (expectedOp : UInt8) : Bool :=
  decide (optionsOffset + 4 ≤ m.mSize) && m.dhcpData 0 == expectedOp && m.dhcpData 1 == htypeEther &&
    m.dhcpData 2 == ethAlen && (List.range 4).map m.options == optCookie

/-- `isValidDhcpMessage(expectedOp, expectedXid)` -/
def isValidDhcpMessage (m : Message) (expectedOp : UInt8) (expectedXid : UInt32) : Bool :=
  m.isValidDhcpMessageOp expectedOp && m.xid == expectedXid

/-- The loop of `getOption` from index `i` on: the index and the length of the option's data. -/
def getOptionFrom (m : Message) (expectedOptCode : UInt8) : Nat → Nat → Option (Nat × UInt8)
  | 0, _ => none
  | fuel + 1, i =>
      if i + 2 < m.optionsSize then
        let optCode := m.options i
        let optLen := m.options (i + 1)
        if optCode = optEnd then none
        else if optCode = expectedOptCode then some (i + 2, optLen)
        else getOptionFrom m expectedOptCode fuel (i + 2 + optLen.toNat)
      else
        none

/-- Every option has at least two bytes, so `optionsSize` iterations are enough. -/
def getOption (m : Message) (expectedOptCode : UInt8) : Option (Nat × UInt8) :=
  m.getOptionFrom expectedOptCode m.optionsSize 4

def type (m : Message) : UInt8 :=
  match m.getOption optMessageType with
  | some (i, length) => if length = 1 then m.options i else 0
  | none => 0

/-- The bytes of the option that `getOption` finds. -/
def optionData (m : Message) (expectedOptCode : UInt8) : Option (List UInt8) :=
  (m.getOption expectedOptCode).map fun found => slice m.dhcpData (optionsOffset + found.1) found.2.toNat

def serverId (m : Message) : UInt32 :=
  match m.getOption optServerId with
  | some (i, length) => if length = 4 then load32 m.dhcpData (optionsOffset + i) else 0
  | none => 0

def requestedIp (m : Message) : UInt32 :=
  match m.getOption optRequestedIp with
  | some (i, length) => if length = 4 then load32 m.dhcpData (optionsOffset + i) else 0
  | none => 0

end Message

end Trout.Dhcp
