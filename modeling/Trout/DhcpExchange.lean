import Trout.DhcpAck
import Trout.DhcpBackoff
import Trout.DhcpBounds
import Trout.DhcpDatagram

/-! A whole exchange with a server that answers with the messages of `message.cpp`, datagram by datagram. What the
client sends, the server hears; what the server sends, the client takes; and the client ends with the address, mask and
router that it has been offered, as many of the name servers as the length octet counts and timers for a lease time with
its octets swapped, or without an address when the server denies the request. -/

namespace Trout.Dhcp
open RingWindow Runs

/-! ### Messages that have gone through datagrams -/

/-- The receiver's message has the size and the octets of the sender's. -/
structure Message.Received (m m' : Message) : Prop where
  size : m'.mSize = m.mSize
  payload : m'.payload = m.payload

/-- A datagram for the port is received there. -/
theorem receivedAt_sendRawUdp (source : UInt32) (sourcePort : UInt16) (destination : UInt32) (port : UInt16)
    (interfaceIndex : UInt32) {m : Message} (hsize : m.mSize ≤ messageCapacity) :
    ∃ m', receivedAt port (some (sendRawUdp source sourcePort destination port interfaceIndex m).bytes) = some m' ∧
      m.Received m' := by
  obtain ⟨m', valid, hreceive, hdelivered⟩ :=
    receive_sent source sourcePort destination port interfaceIndex hsize port .zero
  have hvalid : valid = true := hdelivered.valid.mpr rfl
  subst hvalid
  refine ⟨m', ?_, hdelivered.size, hdelivered.data⟩
  rw [receivedAt, hreceive]

namespace Message
variable {m m' : Message}

theorem Received.octet (h : m.Received m') {i : Nat} (hi : i < m.mSize) : m'.dhcpData i = m.dhcpData i := by
  have hdata := h.payload
  rw [Message.payload, Message.payload, h.size] at hdata
  have hat := congrArg (fun bytes => bytes.getD i 0) hdata
  rwa [slice_getD hi, slice_getD hi, Nat.zero_add] at hat

theorem Received.load32 (h : m.Received m') {i : Nat} (hi : i + 4 ≤ m.mSize) :
    load32 m'.dhcpData i = Trout.Dhcp.load32 m.dhcpData i :=
  load32_congr fun _ hk => h.octet (by omega)

/-- A finished message arrives finished. -/
theorem Received.finished {operation : UInt8} {os : List MessageOption} (h : m.Received m')
    (hm : m.Finished operation os) : m'.Finished operation os := by
  have hlong : 3 ≤ m.mSize := by rw [hm.size, optionsOffset]; omega
  refine ⟨?_, ?_, ?_, ?_, ?_⟩
  · rw [h.octet (by omega), hm.op]
  · rw [h.octet (by omega), hm.htype]
  · rw [h.octet (by omega), hm.hlen]
  · rw [h.size, hm.size]
  · refine Eq.trans (slice_congr fun i hi => h.octet ?_) hm.area
    rw [hm.size]
    omega

/-- Nothing that is put behind a field changes it. -/
theorem load32_poke_behind {mem : Nat → UInt8} {start offset : Nat} (h : offset + 4 ≤ start) (bytes : List UInt8) :
    Trout.Dhcp.load32 (poke mem start bytes) offset = Trout.Dhcp.load32 mem offset :=
  load32_congr fun _ hk => poke_of_lt (by omega)

theorem load32_slice (mem source : Nat → UInt8) (offset : Nat) :
    Trout.Dhcp.load32 (poke mem offset (slice source offset 4)) offset = Trout.Dhcp.load32 source offset := by
  refine load32_congr fun k hk => ?_
  rw [poke_getD (by rwa [slice_length]), slice_getD hk]

theorem xid_append (h : optionsOffset ≤ m.mSize) (bytes : List UInt8) :
    (m.append bytes).xid = m.xid ∧ optionsOffset ≤ (m.append bytes).mSize := by
  refine ⟨load32_poke_behind ?_ bytes, Nat.le_add_right_of_le h⟩
  rw [optionsOffset] at h
  rw [xidOffset]
  omega

variable (source : Message) (serverAddress offeredAddress offeredNetmask offeredGateway : UInt32)
  (servers : List UInt32) (transactionId : UInt32)

/-- The answers carry the transaction id of what they answer. -/
theorem xid_lease (type : UInt8) :
    (lease type source serverAddress offeredAddress offeredNetmask offeredGateway servers transactionId).xid =
      source.xid := by
  let copied := (make opBootReply source.sourceMac type transactionId).copyField source xidOffset 4
  let flagged := copied.copyField source flagsOffset 2
  let offered : Message := { flagged with dhcpData := poke flagged.dhcpData yiaddrOffset (bytes32 offeredAddress) }
  let headed := offered.copyField source giaddrOffset 4
  have hcopied : copied.xid = source.xid := load32_slice _ _ _
  have hflagged : flagged.xid = source.xid := (load32_poke_behind (by decide) _).trans hcopied
  have hoffered : offered.xid = source.xid := (load32_poke_behind (by decide) _).trans hflagged
  have hheaded : headed.xid = source.xid := (load32_poke_behind (by decide) _).trans hoffered
  have h0 : optionsOffset ≤ headed.mSize := Nat.le_add_right _ _
  obtain ⟨h1, hs1⟩ := xid_append h0 _
  obtain ⟨h2, hs2⟩ := xid_append hs1 _
  obtain ⟨h3, hs3⟩ := xid_append hs2 _
  obtain ⟨h4, hs4⟩ := xid_append hs3 _
  obtain ⟨h5, hs5⟩ := xid_append hs4 _
  obtain ⟨h6, -⟩ := xid_append hs5 [optEnd]
  rw [h5, h4, h3, h2, h1, hheaded] at h6
  exact h6

theorem xid_nack : (nack source serverAddress transactionId).xid = source.xid := by
  let copied := (make opBootReply source.sourceMac dhcpNak transactionId).copyField source xidOffset 4
  let flagged := copied.copyField source flagsOffset 2
  let headed := flagged.copyField source giaddrOffset 4
  have hcopied : copied.xid = source.xid := load32_slice _ _ _
  have hflagged : flagged.xid = source.xid := (load32_poke_behind (by decide) _).trans hcopied
  have hheaded : headed.xid = source.xid := (load32_poke_behind (by decide) _).trans hflagged
  have h0 : optionsOffset ≤ headed.mSize := Nat.le_add_right _ _
  obtain ⟨h1, hs1⟩ := xid_append h0 _
  obtain ⟨h2, -⟩ := xid_append hs1 [optEnd]
  rw [h1, hheaded] at h2
  exact h2

theorem Finished.type {operation t : UInt8} {os : List MessageOption}
    (h : m.Finished operation (⟨optMessageType, [t]⟩ :: os))
    (hos : ∀ o ∈ (⟨optMessageType, [t]⟩ :: os : List MessageOption), o.Encodable) : m.type = t :=
  type_of_optionData ((h.optionData hos optMessageType).trans (firstData_head optMessageType [t] os))

theorem Finished.addressOption {operation code : UInt8} {os : List MessageOption} {address : UInt32}
    (h : m.Finished operation os) (hos : ∀ o ∈ os, o.Encodable) (hfirst : firstData os code = some (bytes32 address)) :
    addressOption code m = address :=
  addressOption_of_optionData ((h.optionData hos code).trans hfirst)

theorem nack_finished : (nack source serverAddress transactionId).Finished opBootReply
    [⟨optMessageType, [dhcpNak]⟩, ⟨optServerId, bytes32 serverAddress⟩] := by
  have hmade := make_carries opBootReply source.sourceMac dhcpNak transactionId
  have hheaded := ((hmade.copyField source xidOffset 4 (by decide) (by decide)).copyField source flagsOffset 2 (by decide)
    (by decide)).copyField source giaddrOffset 4 (by decide) (by decide)
  exact (hheaded.addOption ⟨optServerId, bytes32 serverAddress⟩ (by change 4 ≤ 255; decide)).endOptions

theorem nackOptions_encodable : ∀ o ∈ ([⟨optMessageType, [dhcpNak]⟩, ⟨optServerId, bytes32 serverAddress⟩] :
    List MessageOption), o.Encodable :=
  List.forall_mem_cons.mpr ⟨⟨by decide, by decide⟩, List.forall_mem_singleton.mpr (addressOption_encodable (by decide) _)⟩

theorem length_encodeOptions (os : List MessageOption) :
    (encodeOptions os).length = (os.map fun o => 2 + o.data.length).sum := by
  induction os with
  | nil => rfl
  | cons o os ih =>
      rw [List.map_cons, List.sum_cons, ← ih, encodeOptions, List.flatMap_cons, List.length_append, MessageOption.bytes,
        List.length_cons, List.length_cons, ← encodeOptions]
      omega

theorem length_bytes32 (x : UInt32) : (bytes32 x).length = 4 := rfl

/-- A lease fits its buffer: the servers that are counted take 252 octets at most. -/
theorem lease_size (type : UInt8) : (lease type source serverAddress offeredAddress offeredNetmask offeredGateway servers
    transactionId).mSize ≤ messageCapacity := by
  have hservers := countedServers_length servers
  have hsize := (lease_finished type source serverAddress offeredAddress offeredNetmask offeredGateway servers
    transactionId).size
  rw [hsize, List.length_append, List.length_append, length_encodeOptions, leaseOptions]
  simp only [List.map_cons, List.map_nil, List.sum_cons, List.sum_nil, length_bytes32, List.length_cons, List.length_nil,
    optCookie, optionsOffset, messageCapacity]
  omega

end Message

/-! ### What the client makes of an acknowledgement -/

theorem handleMessage_awaiting {c : DhcpClient} (h : c.mState.AwaitsAck) (m : Message) (env : ConfigEnv) :
    c.handleMessage m env = c.handleAnswer m env := by
  unfold DhcpClient.handleMessage
  cases hstate : c.mState with
  | init => exact (hstate ▸ h : State.AwaitsAck .init).elim
  | selecting => exact (hstate ▸ h : State.AwaitsAck .selecting).elim
  | requesting => rfl
  | bound => exact (hstate ▸ h : State.AwaitsAck .bound).elim
  | renewing => rfl
  | rebinding => rfl

/-- Every call that configures or halts the network succeeds. -/
structure ConfigEnv.Succeeds (env : ConfigEnv) : Prop where
  bringUp : env.bringUp = true
  setGatewayProperty : env.setGatewayProperty = true
  setDnsProperty : ∀ j, env.setDnsProperty j = true
  setAddress : env.setAddress = true
  setDefaultGateway : env.setDefaultGateway = true
  bringDown : env.bringDown = true

/-- The network with an address, its mask, a gateway and name servers; the route is left alone under `NoGateway`. -/
def Network.leased (n : Network) (options address netmask gateway : UInt32) (dns : Fin 4 → UInt32) : Network :=
  { n with
    up := true
    address := address
    subnetMask := netmask
    gatewayProperty := some gateway
    dnsProperties := fun j => if dns j ≠ 0 then some (dns j) else none
    defaultGateway := if options &&& noGateway = 0 then some gateway else n.defaultGateway }

/-- When all calls succeed, the network is configured as the information says. -/
theorem configureNetwork_succeeds (c : DhcpClient) (info : DhcpInfo) {env : ConfigEnv} (henv : env.Succeeds)
    (hmtu : info.mtu = 0) :
    c.configureNetwork info env =
      ({ c with network := c.network.leased c.mOptions info.offeredAddress info.subnetMask info.gateway info.dns },
        [.link true, .address info.offeredAddress], true) := by
  simp only [DhcpClient.configureNetwork, henv.bringUp, henv.setGatewayProperty, henv.setDnsProperty, henv.setAddress,
    henv.setDefaultGateway, hmtu, not_true_eq_false, ne_eq, false_and, if_false, if_true, ite_not]
  by_cases hoption : c.mOptions &&& noGateway = 0
  · rw [if_pos hoption]
    simp only [Network.leased, if_pos hoption, ne_eq, ite_not]
  · rw [if_neg hoption]
    simp only [Network.leased, if_neg hoption, ne_eq, ite_not]

section Acknowledged
variable (serverAddress offeredAddress offeredNetmask offeredGateway : UInt32) (servers : List UInt32)

/-- The time of a lease, after `ntohl` of what has been in host order, and the times of its timers, in seconds; the
product for T2 is cut to 32 bits. -/
def swappedLeaseTime : UInt32 := 0x58020000
def swappedT1 : UInt32 := swappedLeaseTime / 2
def swappedT2 : UInt32 := swappedLeaseTime * 7 / 8

/-- The client configures what an acknowledgement carries. -/
theorem configureDhcp_acknowledged (c : DhcpClient) {m : Message} {env : ConfigEnv} (henv : env.Succeeds)
    (hfinished : m.Finished opBootReply
      (⟨optMessageType, [dhcpAck]⟩ :: Message.leaseOptions serverAddress offeredNetmask offeredGateway servers))
    (hyiaddr : m.yiaddr = offeredAddress) :
    (c.configureDhcp m env).2 = ([.link true, .address offeredAddress], true) ∧
      (c.configureDhcp m env).1.network = c.network.leased c.mOptions offeredAddress offeredNetmask offeredGateway
        (fun j => (Message.countedServers servers).getD j 0) ∧
      (c.configureDhcp m env).1.mT1 = .expireSeconds env.t1At swappedT1 ∧
      (c.configureDhcp m env).1.mT2 = .expireSeconds env.t2At swappedT2 := by
  have harea := hfinished.hasAt
  obtain ⟨-, -, hgathers, haccepts⟩ := parse_area (Message.leaseOptions_encodable dhcpAck serverAddress offeredNetmask
    offeredGateway servers) harea
  have hsize : ¬ m.optionsSize < 4 := by
    have hlong := harea.1
    rw [List.length_append, optCookie, List.length_cons] at hlong
    simp only [List.length_cons, List.length_nil] at hlong
    omega
  obtain ⟨hlease, hmask, hgateway, -, hdns⟩ := Message.lease_gathered dhcpAck serverAddress offeredNetmask
    offeredGateway servers hgathers
  have hmtu : (parseOptions m m.optionsSize 4 .zero).1.mtu = 0 := hgathers.mtu
  have ht1 : (parseOptions m m.optionsSize 4 .zero).1.t1 = 0 := hgathers.t1
  have ht2 : (parseOptions m m.optionsSize 4 .zero).1.t2 = 0 := hgathers.t2
  have hconfigure : c.configureDhcp m env =
      c.configureLease { (parseOptions m m.optionsSize 4 .zero).1 with offeredAddress := m.yiaddr } env := by
    rw [DhcpClient.configureDhcp, if_neg hsize]
    dsimp only
    rw [if_neg (not_not.mpr haccepts)]
  rw [hconfigure]
  generalize (parseOptions m m.optionsSize 4 .zero).1 = info at hlease hmask hgateway hdns hmtu ht1 ht2 ⊢
  have hnonzero : ¬ info.leaseTime = 0 := by rw [hlease]; decide
  have hnetwork := configureNetwork_succeeds
    (({ c with mDhcpInfo := { info with offeredAddress := m.yiaddr } } : DhcpClient).armTimers
      { info with offeredAddress := m.yiaddr } env) { info with offeredAddress := m.yiaddr } henv hmtu
  have hservers : info.dns = fun j : Fin 4 => (Message.countedServers servers).getD j 0 := by
    funext j
    exact hdns j
  rw [DhcpClient.configureLease]
  dsimp only at hnetwork ⊢
  rw [if_neg hnonzero, hnetwork]
  simp only [DhcpClient.armTimers, hyiaddr, hmask, hgateway, hservers, ht1, ht2, hlease]
  exact ⟨trivial, trivial, rfl, rfl⟩

end Acknowledged

/-! ### The exchange -/

/-- The datagram of `sendMessage`. -/
def sentDatagram (interfaceIndex : UInt32) (m : Message) : List UInt8 :=
  (sendRawUdp 0 portBootpClient inaddrBroadcast portBootpServer interfaceIndex m).bytes

/-- What a server gives to the functions of `message.cpp`, and where its datagrams come from and go to. -/
structure ServerReply where
  serverAddress : UInt32
  offeredAddress : UInt32
  offeredNetmask : UInt32
  offeredGateway : UInt32
  offeredDnsServers : List UInt32
  transactionId : UInt32
  source : UInt32
  sourcePort : UInt16
  destination : UInt32
  interfaceIndex : UInt32

namespace ServerReply
variable (r : ServerReply)

/-- The datagram that brings a message to the client. -/
def datagram (m : Message) : List UInt8 :=
  (sendRawUdp r.source r.sourcePort r.destination portBootpClient r.interfaceIndex m).bytes

def offer (asked : Message) : Message :=
  .offer asked r.serverAddress r.offeredAddress r.offeredNetmask r.offeredGateway r.offeredDnsServers r.transactionId

def ack (asked : Message) : Message :=
  .ack asked r.serverAddress r.offeredAddress r.offeredNetmask r.offeredGateway r.offeredDnsServers r.transactionId

def nack (asked : Message) : Message := .nack asked r.serverAddress r.transactionId

end ServerReply

/-- The evaluation of a state, at some time and with some fuzz. -/
def DhcpLabel.Evaluates : DhcpLabel → Prop
  | .evaluate _ _ adjustment => -timeoutSpan ≤ adjustment ∧ adjustment ≤ timeoutSpan
  | .poll _ _ _ _ => False

/-- A datagram is readable, and what is called on account of it succeeds. -/
def DhcpLabel.Delivers (datagram : List UInt8) : DhcpLabel → Prop
  | .poll _ (.readable received) env _ => received = receivedMessage (some datagram) ∧ env.Succeeds
  | _ => False

/-- What a finished reply with the transaction id of the last message does when it arrives. -/
theorem dhcpStep_delivers {s : DhcpSystem} {timeout : Nat} (hpolling : s.pc = .polling timeout) {l : DhcpLabel}
    {r : ServerReply} {m : Message} {os : List MessageOption} (hl : l.Delivers (r.datagram m))
    (hm : m.Finished opBootReply os) (hsize : m.mSize ≤ messageCapacity) (hxid : m.xid = s.client.mLastMsg.xid) :
    ∃ m' env pc, m.Received m' ∧ env.Succeeds ∧
      dhcpStep s l = some (⟨(s.client.handleMessage m' env).1, pc⟩, (s.client.handleMessage m' env).2.1) ∧
        ((s.client.handleMessage m' env).2.2 = true → pc = .top) := by
  obtain ⟨m', hreceive, hreceived⟩ :=
    receivedAt_sendRawUdp r.source r.sourcePort r.destination portBootpClient r.interfaceIndex hsize
  have hlong : xidOffset + 4 ≤ m.mSize := by
    rw [hm.size, optionsOffset, xidOffset]
    omega
  have hvalid : m'.isValidDhcpMessage opBootReply s.client.mLastMsg.xid = true := by
    rw [Message.isValidDhcpMessage, (hreceived.finished hm).isValid, Bool.true_and, beq_iff_eq, ← hxid]
    exact hreceived.load32 hlong
  cases l with
  | evaluate expiredAt remainingAt adjustment => exact hl.elim
  | poll startedAt result env currentTime =>
      cases result with
      | timeout => exact hl.elim
      | error => exact hl.elim
      | readable received =>
          obtain ⟨rfl, henv⟩ := hl
          have hfilter : s.client.receiveDhcpMessage (receivedMessage (some (r.datagram m))) = some m' := by
            rw [receivedMessage, ServerReply.datagram, hreceive, DhcpClient.receiveDhcpMessage, Option.filter_some,
              if_pos hvalid]
          refine ⟨m', env, if (s.client.handleMessage m' env).2.2 = true then .top else pollAgain timeout startedAt
            currentTime, hreceived, henv, ?_, fun hreturns => if_pos hreturns⟩
          simp only [dhcpStep, hpolling, hfilter]

theorem increaseTimeout_eq (c : DhcpClient) : ∃ timeout, c.increaseTimeout = { c with mNextTimeout := timeout } := by
  rw [DhcpClient.increaseTimeout]
  split
  · exact ⟨_, rfl⟩
  · exact ⟨_, rfl⟩

/-- An evaluation that sends a message waits for the answer. -/
theorem dhcpStep_evaluates {c : DhcpClient} {l : DhcpLabel} (hl : l.Evaluates) {m : Message}
    (hsends : ∀ expiredAt remainingAt, c.evaluate expiredAt remainingAt = DhcpClient.awaitReply (c.sendNew m)) :
    ∃ next timeout,
      dhcpStep ⟨c, .top⟩ l = some (⟨{ (c.sendNew m).1 with mNextTimeout := next }, .polling timeout⟩, [.sent m]) := by
  cases l with
  | poll startedAt result env currentTime => exact hl.elim
  | evaluate expiredAt remainingAt adjustment =>
      obtain ⟨next, hnext⟩ := increaseTimeout_eq (c.sendNew m).1
      have hwaits := increaseTimeout_ne (c.sendNew m).1
      refine ⟨next, (c.sendNew m).1.increaseTimeout.calculateTimeoutMillis adjustment, ?_⟩
      simp only [dhcpStep, hsends, DhcpClient.awaitReply]
      rw [if_pos ⟨trivial, hl.1, hl.2⟩, if_neg hwaits, hnext]
      rfl

/-- The answers of a server are finished, fit their buffers and carry the transaction id. -/
theorem ServerReply.lease_wellFormed (r : ServerReply) (type : UInt8) (asked : Message) :
    let m := Message.lease type asked r.serverAddress r.offeredAddress r.offeredNetmask r.offeredGateway
      r.offeredDnsServers r.transactionId
    m.Finished opBootReply (⟨optMessageType, [type]⟩ :: Message.leaseOptions r.serverAddress r.offeredNetmask
      r.offeredGateway r.offeredDnsServers) ∧ m.mSize ≤ messageCapacity ∧ m.xid = asked.xid ∧
        m.yiaddr = r.offeredAddress :=
  ⟨Message.lease_finished .., Message.lease_size .., Message.xid_lease .., Message.yiaddr_lease ..⟩

section Exchange
variable {s : DhcpSystem} {timeout : Nat} {l : DhcpLabel} {r : ServerReply} {asked : Message}

/-- An offer is taken: the client wants what the server has offered. -/
theorem offer_taken (hpolling : s.pc = .polling timeout) (hselecting : s.client.mState = .selecting)
    (hasked : asked.xid = s.client.mLastMsg.xid) (hl : l.Delivers (r.datagram (r.offer asked))) :
    ∃ m, dhcpStep s l = some (⟨({ s.client with mServerAddress := r.serverAddress, mRequestAddress := r.offeredAddress } :
      DhcpClient).setNextState .requesting, .top⟩, [.moved .requesting (some m)]) := by
  obtain ⟨hfinished, hsize, hxid, hyiaddr⟩ := r.lease_wellFormed dhcpOffer asked
  obtain ⟨m, env, pc, hreceived, -, hstep, hpc⟩ :=
    dhcpStep_delivers hpolling hl hfinished hsize (hxid.trans hasked)
  have hoptions := Message.leaseOptions_encodable dhcpOffer r.serverAddress r.offeredNetmask r.offeredGateway
    r.offeredDnsServers
  have hm := hreceived.finished hfinished
  have htype : m.type = dhcpOffer := hm.type hoptions
  have hserver : m.serverId = r.serverAddress := by
    rw [Message.serverId_eq_addressOption]
    refine hm.addressOption hoptions ?_
    rw [Message.leaseOptions, firstData_tail (by change optMessageType ≠ _; decide), firstData_head]
  have hlong : yiaddrOffset + 4 ≤ (r.offer asked).mSize := by
    rw [ServerReply.offer, Message.offer, hfinished.size, optionsOffset, yiaddrOffset]
    omega
  have haddress : m.yiaddr = r.offeredAddress := (hreceived.load32 hlong).trans hyiaddr
  have hhandle : s.client.handleMessage m env =
      (({ s.client with mServerAddress := r.serverAddress, mRequestAddress := r.offeredAddress } :
        DhcpClient).setNextState .requesting, [.moved .requesting (some m)], true) := by
    simp only [DhcpClient.handleMessage, hselecting, if_pos htype, hserver, haddress]
  rw [hhandle] at hstep hpc
  exact ⟨m, by rw [hstep, hpc rfl]⟩

/-- An acknowledgement is configured. -/
theorem ack_configured (hpolling : s.pc = .polling timeout) (hrequesting : s.client.mState.AwaitsAck)
    (hasked : asked.xid = s.client.mLastMsg.xid) (hl : l.Delivers (r.datagram (r.ack asked))) :
    ∃ t m, dhcpStep s l = some (t, [.link true, .address r.offeredAddress, .moved .bound (some m)]) ∧ t.pc = .top ∧
      t.client.mState = .bound ∧ t.client.network = s.client.network.leased s.client.mOptions r.offeredAddress
        r.offeredNetmask r.offeredGateway (fun j => (Message.countedServers r.offeredDnsServers).getD j 0) ∧
      ∃ armedAt armedAt', t.client.mT1 = .expireSeconds armedAt swappedT1 ∧
        t.client.mT2 = .expireSeconds armedAt' swappedT2 := by
  obtain ⟨hfinished, hsize, hxid, hyiaddr⟩ := r.lease_wellFormed dhcpAck asked
  obtain ⟨m, env, pc, hreceived, henv, hstep, hpc⟩ :=
    dhcpStep_delivers hpolling hl hfinished hsize (hxid.trans hasked)
  have hm := hreceived.finished hfinished
  have htype : m.type = dhcpAck := hm.type (Message.leaseOptions_encodable dhcpAck r.serverAddress r.offeredNetmask
    r.offeredGateway r.offeredDnsServers)
  have hlong : yiaddrOffset + 4 ≤ (r.ack asked).mSize := by
    rw [ServerReply.ack, Message.ack, hfinished.size, optionsOffset, yiaddrOffset]
    omega
  have haddress : m.yiaddr = r.offeredAddress := (hreceived.load32 hlong).trans hyiaddr
  obtain ⟨hresult, hnetwork, ht1, ht2⟩ := configureDhcp_acknowledged r.serverAddress r.offeredAddress r.offeredNetmask
    r.offeredGateway r.offeredDnsServers s.client henv hm haddress
  have hhandle : s.client.handleMessage m env = ((s.client.configureDhcp m env).1.setNextState .bound,
      [.link true, .address r.offeredAddress, .moved .bound (some m)], true) := by
    rw [handleMessage_awaiting hrequesting, DhcpClient.handleAnswer]
    simp only [if_pos htype, hresult, if_true, List.cons_append, List.nil_append]
  rw [hhandle] at hstep hpc
  have htop : pc = .top := hpc rfl
  generalize (s.client.configureDhcp m env).1 = configured at hstep hnetwork ht1 ht2
  exact ⟨_, m, hstep, htop, rfl, hnetwork, env.t1At, env.t2At, ht1, ht2⟩

/-- A denial takes the address and the interface down. -/
theorem nack_halts (hpolling : s.pc = .polling timeout) (hrequesting : s.client.mState.AwaitsAck)
    (hasked : asked.xid = s.client.mLastMsg.xid) (hl : l.Delivers (r.datagram (r.nack asked))) :
    ∃ t m, dhcpStep s l = some (t, [.address 0, .link false, .moved .init (some m)]) ∧ t.pc = .top ∧
      t.client.mState = .init ∧
        t.client.network = { s.client.network with up := false, address := 0, subnetMask := 0 } := by
  have hfinished := Message.nack_finished asked r.serverAddress r.transactionId
  have hsize := (Message.nack_roundTrips asked r.serverAddress r.transactionId).size
  have hxid := Message.xid_nack asked r.serverAddress r.transactionId
  obtain ⟨m, env, pc, hreceived, henv, hstep, hpc⟩ :=
    dhcpStep_delivers hpolling hl hfinished hsize (hxid.trans hasked)
  have hm := hreceived.finished hfinished
  have htype : m.type = dhcpNak := hm.type (Message.nackOptions_encodable r.serverAddress)
  have hhandle : s.client.handleMessage m env = ((s.client.haltNetwork env).1.setNextState .init,
      [.address 0, .link false, .moved .init (some m)], true) := by
    have hnot : ¬ m.type = dhcpAck := by rw [htype]; decide
    rw [handleMessage_awaiting hrequesting, DhcpClient.handleAnswer]
    simp only [if_neg hnot, if_pos htype, DhcpClient.haltNetwork, henv.setAddress, henv.bringDown, if_true,
      List.cons_append, List.nil_append]
  have hnetwork : (s.client.haltNetwork env).1.network =
      { s.client.network with up := false, address := 0, subnetMask := 0 } := by
    simp only [DhcpClient.haltNetwork, henv.setAddress, henv.bringDown, if_true]
  rw [hhandle] at hstep hpc
  have htop : pc = .top := hpc rfl
  exact ⟨_, m, hstep, htop, rfl, hnetwork⟩

end Exchange

/-- What the server hears of a message that the client sends. -/
def HeardAs (interfaceIndex : UInt32) (m heard : Message) : Prop :=
  receivedAt portBootpServer (some (sentDatagram interfaceIndex m)) = some heard ∧ m.Received heard

theorem heard {m : Message} (interfaceIndex : UInt32) (hsize : m.mSize ≤ messageCapacity) :
    ∃ m', HeardAs interfaceIndex m m' :=
  receivedAt_sendRawUdp 0 portBootpClient inaddrBroadcast portBootpServer interfaceIndex hsize

/-- The server is asked for the address and in the name that it has offered. -/
structure AsksFor (r : ServerReply) (requested : Message) : Prop where
  valid : requested.isValidDhcpMessageOp opBootRequest = true
  type : requested.type = dhcpRequest
  requestedIp : requested.requestedIp = r.offeredAddress
  serverId : requested.serverId = r.serverAddress

theorem discover_finished (macAddress : Vector UInt8 6) (transactionId : UInt32) :
    (Message.discover macAddress transactionId).Finished opBootRequest
      [⟨optMessageType, [dhcpDiscover]⟩, ⟨optParameterList, Message.requestParameters⟩] := by
  rw [Message.discover_eq_build]
  exact Message.build_finished opBootRequest macAddress dhcpDiscover transactionId
    (List.forall_mem_singleton.mpr (by decide))

theorem requestOptions_encodable (requestAddress serverAddress : UInt32) :
    ∀ o ∈ (⟨optMessageType, [dhcpRequest]⟩ :: Message.requestOptions requestAddress serverAddress : List MessageOption),
      o.Encodable := by
  rw [Message.requestOptions, List.forall_mem_cons, List.forall_mem_cons, List.forall_mem_cons, List.forall_mem_singleton]
  exact ⟨⟨by decide, by decide⟩, ⟨by decide, by decide⟩, Message.addressOption_encodable (by decide) _,
    Message.addressOption_encodable (by decide) _⟩

theorem request_finished (macAddress : Vector UInt8 6) (transactionId requestAddress serverAddress : UInt32) :
    (Message.request macAddress transactionId requestAddress serverAddress).Finished opBootRequest
      (⟨optMessageType, [dhcpRequest]⟩ :: Message.requestOptions requestAddress serverAddress) :=
  Message.build_finished opBootRequest macAddress dhcpRequest transactionId fun o ho =>
    (requestOptions_encodable requestAddress serverAddress o (List.mem_cons_of_mem _ ho)).2

theorem asksFor_heard {r : ServerReply} {interfaceIndex transactionId : UInt32} {macAddress : Vector UInt8 6}
    {requested : Message}
    (h : HeardAs interfaceIndex (.request macAddress transactionId r.offeredAddress r.serverAddress) requested) :
    AsksFor r requested := by
  have hoptions := requestOptions_encodable r.offeredAddress r.serverAddress
  have hfinished := h.2.finished (request_finished macAddress transactionId r.offeredAddress r.serverAddress)
  refine ⟨hfinished.isValid, hfinished.type hoptions, ?_, ?_⟩
  · rw [Message.requestedIp_eq_addressOption]
    refine hfinished.addressOption hoptions ?_
    rw [Message.requestOptions, firstData_tail (by decide), firstData_tail (by decide), firstData_head]
  · rw [Message.serverId_eq_addressOption]
    refine hfinished.addressOption hoptions ?_
    rw [Message.requestOptions, firstData_tail (by decide), firstData_tail (by decide),
      firstData_tail (by change optRequestedIp ≠ _; decide), firstData_head]

/-- The transaction id that a server hears is the one of the message. -/
theorem HeardAs.xid {interfaceIndex : UInt32} {m heard : Message} (h : HeardAs interfaceIndex m heard) {operation : UInt8}
    {os : List MessageOption} (hm : m.Finished operation os) : heard.xid = m.xid := by
  refine h.2.load32 ?_
  rw [hm.size, optionsOffset, xidOffset]
  omega

/-- What comes of an exchange that begins with an offer: a lease with swapped times, if the request is acknowledged, and a
halt, if it is denied. -/
structure Exchange (s : DhcpSystem) (r : ServerReply) (discovered requested : Message) : Prop where
  acknowledged : ∀ l1 l2 l3 l4 : DhcpLabel, l1.Evaluates → l2.Delivers (r.datagram (r.offer discovered)) → l3.Evaluates →
    l4.Delivers (r.datagram (r.ack requested)) →
      ∃ u events, exec dhcpStep s [l1, l2, l3, l4] = some (u, events) ∧ u.client.mState = .bound ∧
        u.client.network = s.client.network.leased s.client.mOptions r.offeredAddress r.offeredNetmask r.offeredGateway
          (fun j => (Message.countedServers r.offeredDnsServers).getD j 0) ∧
        ∃ armedAt armedAt', u.client.mT1 = .expireSeconds armedAt swappedT1 ∧
          u.client.mT2 = .expireSeconds armedAt' swappedT2
  denied : ∀ l1 l2 l3 l4 : DhcpLabel, l1.Evaluates → l2.Delivers (r.datagram (r.offer discovered)) → l3.Evaluates →
    l4.Delivers (r.datagram (r.nack requested)) →
      ∃ u events, exec dhcpStep s [l1, l2, l3, l4] = some (u, events) ∧ u.client.mState = .init ∧
        u.client.network = { s.client.network with up := false, address := 0, subnetMask := 0 }

/-- Three steps: the client discovers, takes the offer, and requests what it has been offered. -/
theorem request_sent {s : DhcpSystem} {r : ServerReply} {interfaceIndex : UInt32} {discovered : Message}
    (htop : s.pc = .top) (hselecting : s.client.mState = .selecting)
    (hheard : HeardAs interfaceIndex (.discover s.client.network.macAddress s.client.sNextTransactionId) discovered)
    {l1 l2 l3 : DhcpLabel} (h1 : l1.Evaluates) (h2 : l2.Delivers (r.datagram (r.offer discovered))) (h3 : l3.Evaluates) :
    ∃ t events timeout, exec dhcpStep s [l1, l2, l3] = some (t, events) ∧ t.pc = .polling timeout ∧
      t.client.mState = .requesting ∧ t.client.network = s.client.network ∧ t.client.mOptions = s.client.mOptions ∧
        t.client.mLastMsg = .request s.client.network.macAddress (s.client.sNextTransactionId + 1) r.offeredAddress
          r.serverAddress := by
  obtain ⟨c, pc⟩ := s
  dsimp only at htop hselecting hheard ⊢
  subst htop
  let discover := Message.discover c.network.macAddress c.sNextTransactionId
  have hdiscovers : ∀ expiredAt remainingAt, c.evaluate expiredAt remainingAt =
      DhcpClient.awaitReply (c.sendNew discover) := by
    intro expiredAt remainingAt
    simp only [DhcpClient.evaluate, hselecting, DhcpClient.sendDhcpDiscover, discover]
  obtain ⟨next, timeout, hfirst⟩ := dhcpStep_evaluates h1 hdiscovers
  let discovering := { (c.sendNew discover).1 with mNextTimeout := next }
  have hasked : discovered.xid = discovering.mLastMsg.xid := hheard.xid (discover_finished _ _)
  obtain ⟨m, hsecond⟩ := @offer_taken ⟨discovering, .polling timeout⟩ timeout l2 r discovered rfl hselecting hasked h2
  let chosen := ({ discovering with mServerAddress := r.serverAddress, mRequestAddress := r.offeredAddress } :
    DhcpClient).setNextState .requesting
  let request := Message.request c.network.macAddress (c.sNextTransactionId + 1) r.offeredAddress r.serverAddress
  have hrequests : ∀ expiredAt remainingAt, chosen.evaluate expiredAt remainingAt =
      DhcpClient.awaitReply (chosen.sendNew request) := fun _ _ => rfl
  obtain ⟨next', timeout', hthird⟩ := dhcpStep_evaluates h3 hrequests
  have hrun : exec dhcpStep ⟨c, .top⟩ [l1, l2, l3] = some (⟨{ (chosen.sendNew request).1 with mNextTimeout := next' },
      .polling timeout'⟩, [.sent discover] ++ ([.moved .requesting (some m)] ++ [.sent request])) :=
    exec_cons_eq_some.mpr ⟨_, _, _, hfirst, exec_cons_eq_some.mpr ⟨_, _, _, hsecond, exec_single.trans hthird, rfl⟩, rfl⟩
  exact ⟨_, _, timeout', hrun, rfl, rfl, rfl, rfl, rfl⟩

/-- A server that offers the address 5 and two name servers. -/
def smallReply : ServerReply := ⟨1, 5, 0x00FFFFFF, 1, [8, 9], 0, 1, portBootpServer, inaddrBroadcast, 0⟩

def deliver (datagram : List UInt8) : DhcpLabel := .poll 0 (.readable (receivedMessage (some datagram))) allSucceed 0

theorem deliver_delivers (datagram : List UInt8) : (deliver datagram).Delivers datagram :=
  ⟨rfl, rfl, rfl, fun _ => rfl, rfl, rfl, rfl⟩

theorem evaluateNow_evaluates : evaluateNow.Evaluates := by
  change -timeoutSpan ≤ 0 ∧ 0 ≤ timeoutSpan
  decide

end Trout.Dhcp
