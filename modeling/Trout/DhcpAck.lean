import Trout.DhcpGrammar

/-! What a server puts into an acknowledgement, and what `configureDhcp` makes of it. Addresses stay in network
order on both sides; the lease time is in host order on one side and in network order on the other. -/

namespace Trout.Dhcp
open RingWindow Runs

/-! ### Words as octets -/

/-- The words of a list of addresses are its addresses. -/
theorem load32_addresses {addresses : List UInt32} {j : Nat} (h : j < addresses.length) :
    load32 (fun a => (addresses.flatMap bytes32).getD a 0) (4 * j) = addresses.getD j 0 := by
  induction j generalizing addresses with
  | zero =>
      obtain ⟨x, rest, rfl⟩ := List.exists_cons_of_length_pos h
      rw [List.flatMap_cons]
      exact load32_getD_bytes32 x _
  | succ j ih =>
      obtain ⟨x, rest, rfl⟩ := List.exists_cons_of_length_pos (Nat.zero_lt_of_lt h)
      rw [List.length_cons, Nat.add_lt_add_iff_right] at h
      rw [List.getD_cons_succ, ← ih h, List.flatMap_cons]
      refine load32_congr fun k _ => ?_
      rw [show 4 * (j + 1) + k = (bytes32 x).length + (4 * j + k) by change _ = 4 + _; omega]
      exact List.getD_append_right _ _ _ _ (Nat.le_add_right _ _) |>.trans (by rw [Nat.add_sub_cancel_left])

theorem length_addresses (addresses : List UInt32) : (addresses.flatMap bytes32).length = 4 * addresses.length := by
  induction addresses with
  | nil => rfl
  | cons x addresses ih =>
      rw [List.flatMap_cons, List.length_append, ih, List.length_cons]
      change 4 + _ = _
      omega

theorem take_addresses (addresses : List UInt32) (k : Nat) :
    (addresses.flatMap bytes32).take (4 * k) = (addresses.take k).flatMap bytes32 := by
  induction k generalizing addresses with
  | zero => rfl
  | succ k ih =>
      cases addresses with
      | nil => simp
      | cons x addresses =>
          rw [List.take_succ_cons, List.flatMap_cons, List.flatMap_cons, ← ih,
            show 4 * (k + 1) = (bytes32 x).length + 4 * k by change _ = 4 + _; omega, List.take_length_add_append]

namespace Message

/-- The length octet counts modulo 256, and so many octets are appended. -/
theorem addOption_take (m : Message) (type : UInt8) (data : List UInt8) :
    m.addOption type data = m.addOption type (data.take (data.length % 256)) := by
  have hlength : (data.take (data.length % 256)).length = data.length % 256 :=
    List.length_take_of_le (Nat.mod_le _ _)
  have hsize : UInt8.ofNat (data.length % 256) = UInt8.ofNat data.length := by
    apply UInt8.toNat_inj.mp
    rw [UInt8.toNat_ofNat', UInt8.toNat_ofNat', Nat.mod_mod]
  rw [addOption, addOption, hlength, hsize, UInt8.toNat_ofNat', List.take_take, Nat.min_self]

/-- The servers whose addresses fit a length octet. -/
def countedServers (servers : List UInt32) : List UInt32 := servers.take (servers.length % 64)

theorem addOption_servers (m : Message) (servers : List UInt32) :
    m.addOption optDns (servers.flatMap bytes32) = m.addOption optDns ((countedServers servers).flatMap bytes32) := by
  rw [addOption_take, length_addresses, show 4 * servers.length % 256 = 4 * (servers.length % 64) by omega,
    take_addresses, countedServers]

end Message

/-! ### The acknowledgement -/

namespace Message

/-- The options of an offer or an acknowledgement, after its type. -/
def leaseOptions (serverAddress offeredNetmask offeredGateway : UInt32) (servers : List UInt32) : List MessageOption :=
  [⟨optServerId, bytes32 serverAddress⟩, ⟨optLeaseTime, bytes32 defaultLeaseTime⟩,
    ⟨optSubnetMask, bytes32 offeredNetmask⟩, ⟨optGateway, bytes32 offeredGateway⟩,
    ⟨optDns, (countedServers servers).flatMap bytes32⟩]

variable (type : UInt8) (source : Message)
  (serverAddress offeredAddress offeredNetmask offeredGateway : UInt32) (servers : List UInt32) (transactionId : UInt32)

theorem countedServers_length : ((countedServers servers).flatMap bytes32).length ≤ 255 := by
  have hmod : servers.length % 64 < 64 := Nat.mod_lt _ (by decide)
  rw [length_addresses, countedServers, List.length_take]
  omega

theorem lease_finished :
    (lease type source serverAddress offeredAddress offeredNetmask offeredGateway servers transactionId).Finished
      opBootReply (⟨optMessageType, [type]⟩ :: leaseOptions serverAddress offeredNetmask offeredGateway servers) := by
  have hmade := make_carries opBootReply source.sourceMac type transactionId
  have hidentified := (hmade.copyField source xidOffset 4 (by decide) (by decide)).copyField source flagsOffset 2
    (by decide) (by decide)
  have hoffered := hidentified.poke yiaddrOffset (bytes32 offeredAddress) (by decide) (by change 20 ≤ 236; decide)
  have hheaded := hoffered.copyField source giaddrOffset 4 (by decide) (by decide)
  have hserver := hheaded.addOption ⟨optServerId, bytes32 serverAddress⟩ (by change 4 ≤ 255; decide)
  have htime := hserver.addOption ⟨optLeaseTime, bytes32 defaultLeaseTime⟩ (by decide)
  have hmask := htime.addOption ⟨optSubnetMask, bytes32 offeredNetmask⟩ (by change 4 ≤ 255; decide)
  have hgateway := hmask.addOption ⟨optGateway, bytes32 offeredGateway⟩ (by change 4 ≤ 255; decide)
  have hdns := hgateway.addOption ⟨optDns, (countedServers servers).flatMap bytes32⟩ (countedServers_length servers)
  rw [← addOption_servers] at hdns
  exact hdns.endOptions

theorem leaseOptions_encodable :
    ∀ o ∈ (⟨optMessageType, [type]⟩ :: leaseOptions serverAddress offeredNetmask offeredGateway servers :
      List MessageOption), o.Encodable := by
  rw [leaseOptions, List.forall_mem_cons, List.forall_mem_cons, List.forall_mem_cons, List.forall_mem_cons,
    List.forall_mem_cons, List.forall_mem_singleton]
  exact ⟨⟨by change optMessageType ≠ _; decide, by change 1 ≤ 255; decide⟩, addressOption_encodable (by decide) _, addressOption_encodable (by decide) _,
    addressOption_encodable (by decide) _, addressOption_encodable (by decide) _,
    by change optDns ≠ _; decide, countedServers_length servers⟩

theorem Finished.hasAt {m : Message} {operation : UInt8} {os : List MessageOption} (h : m.Finished operation os) :
    m.HasAt 0 (optCookie ++ (encodeOptions os ++ [optEnd])) := by
  rw [← List.append_assoc]
  refine ⟨?_, h.area⟩
  rw [optionsSize, h.size, Nat.add_sub_cancel_left, Nat.zero_add]

theorem poke_getD {mem : Nat → UInt8} {start k : Nat} {bytes : List UInt8} (h : k < bytes.length) :
    poke mem start bytes (start + k) = bytes.getD k 0 := by
  rw [poke, if_pos (Nat.le_add_right _ _), Nat.add_sub_cancel_left, List.getD_eq_getElem _ _ h, List.getD_eq_getElem _ _ h]

/-- What is appended behind the header leaves the offered address alone. -/
theorem yiaddr_append {m : Message} (h : optionsOffset ≤ m.mSize) (bytes : List UInt8) :
    (m.append bytes).yiaddr = m.yiaddr ∧ optionsOffset ≤ (m.append bytes).mSize := by
  refine ⟨load32_congr fun k hk => poke_of_lt ?_, Nat.le_add_right_of_le h⟩
  rw [optionsOffset] at h
  rw [yiaddrOffset]
  omega

theorem yiaddr_lease :
    (lease type source serverAddress offeredAddress offeredNetmask offeredGateway servers transactionId).yiaddr =
      offeredAddress := by
  let identified := ((make opBootReply source.sourceMac type transactionId).copyField source xidOffset 4).copyField
    source flagsOffset 2
  let offered : Message := { identified with dhcpData := poke identified.dhcpData yiaddrOffset (bytes32 offeredAddress) }
  have hoffered : offered.yiaddr = offeredAddress := by
    rw [Message.yiaddr, ← load32_getD_bytes32 offeredAddress []]
    refine load32_congr fun k hk => ?_
    rw [List.append_nil, Nat.zero_add]
    exact poke_getD hk
  have hheaded : (offered.copyField source giaddrOffset 4).yiaddr = offeredAddress := by
    rw [← hoffered]
    exact load32_congr fun k hk => poke_of_lt (by rw [yiaddrOffset, giaddrOffset]; omega)
  have h0 : optionsOffset ≤ (offered.copyField source giaddrOffset 4).mSize := Nat.le_add_right _ _
  obtain ⟨h1, hs1⟩ := yiaddr_append h0 _
  obtain ⟨h2, hs2⟩ := yiaddr_append hs1 _
  obtain ⟨h3, hs3⟩ := yiaddr_append hs2 _
  obtain ⟨h4, hs4⟩ := yiaddr_append hs3 _
  obtain ⟨h5, hs5⟩ := yiaddr_append hs4 _
  obtain ⟨h6, -⟩ := yiaddr_append hs5 [optEnd]
  rw [h5, h4, h3, h2, h1, hheaded] at h6
  exact h6

/-- What the loop gathers from an acknowledgement. -/
theorem lease_gathered {info : DhcpInfo} (h : info.Gathers .zero
    (⟨optMessageType, [type]⟩ :: leaseOptions serverAddress offeredNetmask offeredGateway servers)) :
    info.leaseTime = 0x58020000 ∧ info.subnetMask = offeredNetmask ∧ info.gateway = offeredGateway ∧
      info.serverId = serverAddress ∧ ∀ j : Fin 4, info.dns j = (countedServers servers).getD j 0 := by
  refine ⟨?_, ?_, ?_, ?_, fun j => ?_⟩
  · rw [h.leaseTime, leaseOptions]
    rfl
  · rw [h.subnetMask, leaseOptions]
    exact load32_getD_bytes32 offeredNetmask []
  · rw [h.gateway, leaseOptions]
    exact load32_getD_bytes32 offeredGateway []
  · rw [h.serverId, leaseOptions]
    exact load32_getD_bytes32 serverAddress []
  · rw [h.dns j, leaseOptions]
    change (MessageOption.sets ⟨optDns, (countedServers servers).flatMap bytes32⟩ optDns _ _).getD 0 = _
    rw [MessageOption.sets, ite_some_getD]
    simp only [true_and, decide_eq_true_eq, length_addresses]
    by_cases hj : j.val < (countedServers servers).length
    · rw [if_pos (by omega)]
      exact load32_addresses hj
    · rw [if_neg (by omega), List.getD_eq_default _ _ (Nat.le_of_not_lt hj)]

end Message

/-- The loop has accepted the message: this is the information that the client keeps. -/
theorem configureDhcp_info (c : DhcpClient) {msg : Message} (env : ConfigEnv) (hsize : 4 ≤ msg.optionsSize)
    (haccepts : (parseOptions msg msg.optionsSize 4 .zero).2 = true) :
    (c.configureDhcp msg env).1.mDhcpInfo =
      { (parseOptions msg msg.optionsSize 4 .zero).1 with offeredAddress := msg.yiaddr } := by
  rw [DhcpClient.configureDhcp, if_neg (Nat.not_lt.mpr hsize)]
  dsimp only
  rw [if_neg (not_not.mpr haccepts)]
  obtain ⟨t1, t2, network, hframe⟩ := configureLease_frame c
    { (parseOptions msg msg.optionsSize 4 .zero).1 with offeredAddress := msg.yiaddr } env
  rw [hframe]
  rfl

/-- The information is what the acknowledgement was made of. -/
structure AckConveyed (info : DhcpInfo) (serverAddress offeredAddress offeredNetmask offeredGateway : UInt32)
    (servers : List UInt32) : Prop where
  leaseTime : info.leaseTime = Message.defaultLeaseTime
  subnetMask : info.subnetMask = offeredNetmask
  gateway : info.gateway = offeredGateway
  serverId : info.serverId = serverAddress
  offeredAddress : info.offeredAddress = offeredAddress
  dns : ∀ j : Fin 4, info.dns j = servers.getD j 0

/-- The first four servers are conveyed exactly when the length octet does not cut one of them off. -/
theorem countedServers_iff (servers : List UInt32) :
    (∀ j : Fin 4, (Message.countedServers servers).getD j 0 = servers.getD j 0) ↔
      ∀ j : Fin 4, servers.length % 64 ≤ j → servers.getD j 0 = 0 := by
  refine forall_congr' fun j => ?_
  have hle : servers.length % 64 ≤ servers.length := Nat.mod_le _ _
  have hlength : (Message.countedServers servers).length = servers.length % 64 := by
    rw [Message.countedServers, List.length_take_of_le hle]
  by_cases hj : j.val < servers.length % 64
  · refine iff_of_true ?_ fun hcut => absurd hj (Nat.not_lt.mpr hcut)
    rw [List.getD_eq_getElem _ _ (by omega), List.getD_eq_getElem _ _ (by omega)]
    exact List.getElem_take
  · rw [List.getD_eq_default _ _ (by omega)]
    exact ⟨fun heq _ => heq.symm, fun hzero => (hzero (Nat.le_of_not_lt hj)).symm⟩

/-- An acknowledgement is accepted and its addresses are conveyed, its servers as far as the length octet counts
them; the lease time never is. -/
theorem ack_never_conveyed (source : Message)
    (serverAddress offeredAddress offeredNetmask offeredGateway : UInt32) (servers : List UInt32)
    (transactionId : UInt32) (c : DhcpClient) (env : ConfigEnv) :
    let msg := Message.ack source serverAddress offeredAddress offeredNetmask offeredGateway servers transactionId
    let info := (c.configureDhcp msg env).1.mDhcpInfo
    (parseOptions msg msg.optionsSize 4 .zero).2 = true ∧ info.leaseTime = 0x58020000 ∧
      info.subnetMask = offeredNetmask ∧ info.gateway = offeredGateway ∧ info.serverId = serverAddress ∧
      info.offeredAddress = offeredAddress ∧
      ((∀ j : Fin 4, info.dns j = servers.getD j 0) ↔ ∀ j : Fin 4, servers.length % 64 ≤ j → servers.getD j 0 = 0) ∧
      ¬ AckConveyed info serverAddress offeredAddress offeredNetmask offeredGateway servers := by
  intro msg info
  have hfinished : msg.Finished opBootReply (⟨optMessageType, [dhcpAck]⟩ :: Message.leaseOptions serverAddress
      offeredNetmask offeredGateway servers) := Message.lease_finished dhcpAck source serverAddress offeredAddress
    offeredNetmask offeredGateway servers transactionId
  have harea := hfinished.hasAt
  obtain ⟨-, -, hgathers, haccepts⟩ := parse_area (Message.leaseOptions_encodable dhcpAck serverAddress offeredNetmask
    offeredGateway servers) harea
  have hsize : 4 ≤ msg.optionsSize := le_trans (by rw [List.length_append]; exact Nat.le_add_right 4 _)
    (le_trans (Nat.le_add_left _ 0) harea.1)
  have hinfo : info = { (parseOptions msg msg.optionsSize 4 .zero).1 with offeredAddress := msg.yiaddr } :=
    configureDhcp_info c env hsize haccepts
  obtain ⟨hlease, hmask, hgateway, hserver, hdns⟩ := Message.lease_gathered dhcpAck serverAddress offeredNetmask
    offeredGateway servers hgathers
  have hwrong : info.leaseTime = 0x58020000 := by rw [hinfo, hlease]
  refine ⟨haccepts, hwrong, by rw [hinfo, hmask], by rw [hinfo, hgateway], by rw [hinfo, hserver], ?_, ?_, ?_⟩
  · rw [hinfo]
    exact Message.yiaddr_lease dhcpAck source serverAddress offeredAddress offeredNetmask offeredGateway servers
      transactionId
  · rw [← countedServers_iff]
    refine forall_congr' fun j => ?_
    rw [← hdns j, hinfo]
  · intro hconveyed
    have htime := hconveyed.leaseTime
    rw [hwrong] at htime
    exact absurd htime (by decide)

/-- A lease of ten minutes becomes one of more than forty-six years. -/
theorem ack_lease_swapped :
    (firstStart.client.configureDhcp (Message.ack .zero 1 2 3 4 [5] 0) allSucceed).1.mDhcpInfo.leaseTime = 1476526080 ∧
      ¬ AckConveyed (firstStart.client.configureDhcp (Message.ack .zero 1 2 3 4 [5] 0) allSucceed).1.mDhcpInfo
        1 2 3 4 [5] := by
  have hlease : (firstStart.client.configureDhcp (Message.ack .zero 1 2 3 4 [5] 0) allSucceed).1.mDhcpInfo.leaseTime =
      1476526080 := by decide +kernel
  refine ⟨hlease, fun hconveyed => ?_⟩
  have htime := hconveyed.leaseTime
  rw [hlease] at htime
  exact absurd htime (by decide)

end Trout.Dhcp
