import Trout.DhcpSocket
import Trout.DhcpSteps

/-! What the client reads of the datagrams it receives: the version, the protocol and the port of the headers, and of
the message the operation, the kind of the hardware address, the transaction id, `yiaddr` and the options. The other
octets (checksums and addresses of the headers, `chaddr`, `siaddr`, `sname`, `file`, ..) have no influence on any run. -/

namespace Trout.Dhcp
open Runs

/-! ### Messages -/

/-- The offsets of the octets that the client reads of a message. -/
def ReadInMessage (i : Nat) : Prop :=
  i < 3 ∨ (xidOffset ≤ i ∧ i < xidOffset + 4) ∨ (yiaddrOffset ≤ i ∧ i < yiaddrOffset + 4) ∨ optionsOffset ≤ i

/-- The messages have the same size, and agree on what the client reads. -/
structure Message.Alike (m m' : Message) : Prop where
  size : m.mSize = m'.mSize
  octets : ∀ i, ReadInMessage i → m.dhcpData i = m'.dhcpData i

theorem readInMessage_options (i : Nat) : ReadInMessage (optionsOffset + i) :=
  Or.inr (Or.inr (Or.inr (Nat.le_add_right _ _)))

namespace Message
variable {m m' : Message}

theorem Alike.optionsSize (h : m.Alike m') : m.optionsSize = m'.optionsSize := by
  rw [Message.optionsSize, Message.optionsSize, h.size]

theorem Alike.options (h : m.Alike m') : m.options = m'.options := by
  funext i
  exact h.octets _ (readInMessage_options i)

/-- The words of the options area. -/
theorem Alike.word (h : m.Alike m') (i : Nat) :
    load32 m.dhcpData (optionsOffset + i) = load32 m'.dhcpData (optionsOffset + i) ∧
      netLoad32 m.dhcpData (optionsOffset + i) = netLoad32 m'.dhcpData (optionsOffset + i) ∧
        netLoad16 m.dhcpData (optionsOffset + i) = netLoad16 m'.dhcpData (optionsOffset + i) := by
  have hoctet (k : Nat) : m.dhcpData (optionsOffset + i + k) = m'.dhcpData (optionsOffset + i + k) := by
    rw [Nat.add_assoc]
    exact h.octets _ (readInMessage_options (i + k))
  have hfirst : m.dhcpData (optionsOffset + i) = m'.dhcpData (optionsOffset + i) := hoctet 0
  refine ⟨?_, ?_, ?_⟩
  · rw [load32, load32, hfirst, hoctet 1, hoctet 2, hoctet 3]
  · rw [netLoad32, netLoad32, hfirst, hoctet 1, hoctet 2, hoctet 3]
  · rw [netLoad16, netLoad16, hfirst, hoctet 1]

theorem Alike.xid (h : m.Alike m') : m.xid = m'.xid := by
  have hoctet (k : Nat) (hk : k < 4) : m.dhcpData (xidOffset + k) = m'.dhcpData (xidOffset + k) :=
    h.octets _ (Or.inr (Or.inl ⟨Nat.le_add_right _ _, Nat.add_lt_add_left hk _⟩))
  have hfirst : m.dhcpData xidOffset = m'.dhcpData xidOffset := hoctet 0 (by decide)
  rw [Message.xid, Message.xid, load32, load32, hfirst, hoctet 1 (by decide), hoctet 2 (by decide), hoctet 3 (by decide)]

theorem Alike.yiaddr (h : m.Alike m') : m.yiaddr = m'.yiaddr := by
  have hoctet (k : Nat) (hk : k < 4) : m.dhcpData (yiaddrOffset + k) = m'.dhcpData (yiaddrOffset + k) :=
    h.octets _ (Or.inr (Or.inr (Or.inl ⟨Nat.le_add_right _ _, Nat.add_lt_add_left hk _⟩)))
  have hfirst : m.dhcpData yiaddrOffset = m'.dhcpData yiaddrOffset := hoctet 0 (by decide)
  rw [Message.yiaddr, Message.yiaddr, load32, load32, hfirst, hoctet 1 (by decide), hoctet 2 (by decide),
    hoctet 3 (by decide)]

theorem Alike.isValidDhcpMessage (h : m.Alike m') (expectedOp : UInt8) (expectedXid : UInt32) :
    m.isValidDhcpMessage expectedOp expectedXid = m'.isValidDhcpMessage expectedOp expectedXid := by
  have hhead (i : Nat) (hi : i < 3) : m.dhcpData i = m'.dhcpData i := h.octets i (Or.inl hi)
  rw [Message.isValidDhcpMessage, Message.isValidDhcpMessage, isValidDhcpMessageOp, isValidDhcpMessageOp, h.size,
    h.options, h.xid, hhead 0 (by decide), hhead 1 (by decide), hhead 2 (by decide)]

theorem Alike.getOptionFrom (h : m.Alike m') (code : UInt8) (fuel i : Nat) :
    m.getOptionFrom code fuel i = m'.getOptionFrom code fuel i := by
  induction fuel generalizing i with
  | zero => rfl
  | succ fuel ih =>
      rw [Message.getOptionFrom, Message.getOptionFrom, h.optionsSize, h.options]
      simp only [ih]

theorem Alike.getOption (h : m.Alike m') (code : UInt8) : m.getOption code = m'.getOption code := by
  rw [Message.getOption, Message.getOption, h.optionsSize]
  exact h.getOptionFrom code _ _

theorem Alike.type (h : m.Alike m') : m.type = m'.type := by
  unfold Message.type
  rw [h.getOption, h.options]

theorem Alike.serverId (h : m.Alike m') : m.serverId = m'.serverId := by
  unfold Message.serverId
  rw [h.getOption]
  cases m'.getOption optServerId with
  | none => rfl
  | some found =>
      dsimp only
      rw [(h.word found.1).1]

end Message

/-! ### The client -/

section Client
variable {m m' : Message} (h : m.Alike m') (c : DhcpClient) (env : ConfigEnv)
include h

theorem Message.Alike.addressAt (i : Nat) : addressAt m i = Trout.Dhcp.addressAt m' i := (h.word i).1

theorem Message.Alike.visit (info : DhcpInfo) (i : Nat) : info.visit m i = info.visit m' i := by
  simp only [DhcpInfo.visit, h.options, h.addressAt, (h.word (i + 2)).2.1, (h.word (i + 2)).2.2]

theorem Message.Alike.parseOptions (fuel i : Nat) (info : DhcpInfo) :
    parseOptions m fuel i info = Trout.Dhcp.parseOptions m' fuel i info := by
  induction fuel generalizing i info with
  | zero => rfl
  | succ fuel ih =>
      rw [Trout.Dhcp.parseOptions, Trout.Dhcp.parseOptions, h.optionsSize, h.options, h.visit]
      simp only [ih]

theorem configureDhcp_alike : c.configureDhcp m env = c.configureDhcp m' env := by
  rw [DhcpClient.configureDhcp, DhcpClient.configureDhcp, h.optionsSize, h.parseOptions, h.yiaddr]

end Client

/-- The events are the same, but for messages that are alike. -/
inductive DhcpEvent.Alike : DhcpEvent → DhcpEvent → Prop where
  | same (event : DhcpEvent) : event.Alike event
  | caused (state : State) {m m' : Message} (alike : m.Alike m') :
      DhcpEvent.Alike (.moved state (some m)) (.moved state (some m'))

theorem forall₂_alike_refl (es : List DhcpEvent) : List.Forall₂ DhcpEvent.Alike es es := by
  induction es with
  | nil => exact .nil
  | cons event es ih => exact .cons (.same event) ih

/-- What a message does, one that is alike does. -/
structure HandledAlike (r r' : DhcpClient × List DhcpEvent × Bool) : Prop where
  client : r.1 = r'.1
  events : List.Forall₂ DhcpEvent.Alike r.2.1 r'.2.1
  returns : r.2.2 = r'.2.2

theorem HandledAlike.refl (r : DhcpClient × List DhcpEvent × Bool) : HandledAlike r r :=
  ⟨rfl, forall₂_alike_refl _, rfl⟩

section Handle
variable {m m' : Message} (h : m.Alike m') (c : DhcpClient) (env : ConfigEnv)
include h

theorem handleAnswer_alike : HandledAlike (c.handleAnswer m env) (c.handleAnswer m' env) := by
  simp only [DhcpClient.handleAnswer]
  rw [configureDhcp_alike h, h.type]
  by_cases hack : m'.type = dhcpAck
  · rw [if_pos hack, if_pos hack]
    by_cases hconfigured : (c.configureDhcp m' env).2.2 = true
    · rw [if_pos hconfigured, if_pos hconfigured]
      exact ⟨rfl, List.rel_append (forall₂_alike_refl _) (.cons (.caused .bound h) .nil), rfl⟩
    · rw [if_neg hconfigured, if_neg hconfigured]
      exact .refl _
  · rw [if_neg hack, if_neg hack]
    by_cases hnak : m'.type = dhcpNak
    · rw [if_pos hnak, if_pos hnak]
      exact ⟨rfl, List.rel_append (forall₂_alike_refl _) (.cons (.caused .init h) .nil), rfl⟩
    · rw [if_neg hnak, if_neg hnak]
      exact .refl _

theorem handleMessage_alike : HandledAlike (c.handleMessage m env) (c.handleMessage m' env) := by
  unfold DhcpClient.handleMessage
  cases c.mState with
  | init => exact .refl _
  | selecting =>
      dsimp only
      rw [h.type, h.serverId, h.yiaddr]
      by_cases hoffer : m'.type = dhcpOffer
      · rw [if_pos hoffer, if_pos hoffer]
        exact ⟨rfl, .cons (.caused .requesting h) .nil, rfl⟩
      · rw [if_neg hoffer, if_neg hoffer]
        exact .refl _
  | requesting => exact handleAnswer_alike h c env
  | bound => exact .refl _
  | renewing => exact handleAnswer_alike h c env
  | rebinding => exact handleAnswer_alike h c env

end Handle

/-! ### Datagrams -/

/-- The offsets of the octets that the client reads of a datagram: version and length of the IP header, protocol,
destination port, and what it reads of the message. -/
def ReadInDatagram (a : Nat) : Prop :=
  a = 0 ∨ a = 9 ∨ a = ipSize + 2 ∨ a = ipSize + 3 ∨ ∃ i, ReadInMessage i ∧ a = ipSize + udpSize + i

/-- The datagrams are of one length, and agree on what the client reads. -/
structure DatagramsAlike (d d' : List UInt8) : Prop where
  length : d.length = d'.length
  octets : ∀ a, ReadInDatagram a → d.getD a 0 = d'.getD a 0

theorem getD_take (d : List UInt8) (n a : Nat) : (d.take n).getD a 0 = if a < n then d.getD a 0 else 0 := by
  rw [List.getD_eq_getElem?_getD, List.getD_eq_getElem?_getD, List.getElem?_take]
  by_cases ha : a < n
  · rw [if_pos ha, if_pos ha]
  · rw [if_neg ha, if_neg ha, Option.getD_none]

theorem getD_drop (d : List UInt8) (n a : Nat) : (d.drop n).getD a 0 = d.getD (n + a) 0 := by
  rw [List.getD_eq_getElem?_getD, List.getD_eq_getElem?_getD, List.getElem?_drop]

/-- Datagrams are alike as far as they are read. -/
theorem DatagramsAlike.take {d d' : List UInt8} (h : DatagramsAlike d d') (n : Nat) :
    DatagramsAlike (d.take n) (d'.take n) := by
  refine ⟨?_, fun a ha => ?_⟩
  · rw [List.length_take, List.length_take, h.length]
  · rw [getD_take, getD_take, h.octets a ha]

theorem poke_zero (bytes : List UInt8) (i : Nat) : poke Message.zero.dhcpData 0 bytes i = bytes.getD i 0 := by
  rw [poke, if_pos (Nat.zero_le i), Nat.sub_zero]
  rfl

theorem receivedMessage_alike {d d' : List UInt8} (h : DatagramsAlike d d') :
    Option.Rel Message.Alike (receivedMessage (some d)) (receivedMessage (some d')) := by
  have htake := h.take (ipSize + udpSize + messageCapacity)
  simp only [receivedMessage, receivedAt, receiveRawUdp, Option.map_some]
  generalize d.take (ipSize + udpSize + messageCapacity) = read at htake ⊢
  generalize d'.take (ipSize + udpSize + messageCapacity) = read' at htake ⊢
  have hversion : read.getD 0 0 = read'.getD 0 0 := htake.octets 0 (Or.inl rfl)
  have hprotocol : read.getD 9 0 = read'.getD 9 0 := htake.octets 9 (Or.inr (Or.inl rfl))
  have hport : load16 (read.getD · 0) (ipSize + 2) = load16 (read'.getD · 0) (ipSize + 2) := by
    rw [load16, load16, htake.octets (ipSize + 2) (Or.inr (Or.inr (Or.inl rfl))),
      htake.octets (ipSize + 2 + 1) (Or.inr (Or.inr (Or.inr (Or.inl rfl))))]
  have hmessage : (⟨poke Message.zero.dhcpData 0 (read.drop (ipSize + udpSize)), read.length - ipSize - udpSize⟩ :
      Message).Alike ⟨poke Message.zero.dhcpData 0 (read'.drop (ipSize + udpSize)), read'.length - ipSize - udpSize⟩ := by
    refine ⟨?_, fun i hi => ?_⟩
    · dsimp only
      rw [htake.length]
    · dsimp only
      rw [poke_zero, poke_zero, getD_drop, getD_drop]
      exact htake.octets _ (Or.inr (Or.inr (Or.inr (Or.inr ⟨i, hi, rfl⟩))))
  rw [← htake.length]
  by_cases hshort : read.length < ipSize + udpSize
  · rw [if_pos hshort, if_pos hshort]
    exact .none
  · rw [if_neg hshort, if_neg hshort, ← htake.length] at *
    simp only [IpHeader.load, UdpHeader.load, hversion, hprotocol, hport]
    generalize (read'.getD 0 0 >>> 4 == ipVersion && read'.getD 0 0 &&& 0xF == UInt8.ofNat (ipSize / 4) &&
      read'.getD 9 0 == ipProtoUdp && load16 (read'.getD · 0) (ipSize + 2) == htons portBootpClient) = isValid
    cases isValid with
    | false => exact .none
    | true => exact .some hmessage

/-! ### Runs -/

/-- The same label, but for a datagram that is alike. -/
inductive DhcpLabel.Alike : DhcpLabel → DhcpLabel → Prop where
  | same (l : DhcpLabel) : l.Alike l
  | receives (startedAt : Nat) {d d' : List UInt8} (alike : DatagramsAlike d d') (env : ConfigEnv) (currentTime : Nat) :
      DhcpLabel.Alike (.poll startedAt (.readable (receivedMessage (some d))) env currentTime)
        (.poll startedAt (.readable (receivedMessage (some d'))) env currentTime)

theorem receiveDhcpMessage_alike {received received' : Option Message} (h : Option.Rel Message.Alike received received')
    (c : DhcpClient) : Option.Rel Message.Alike (c.receiveDhcpMessage received) (c.receiveDhcpMessage received') := by
  cases h with
  | none => exact .none
  | @some m m' halike =>
      simp only [DhcpClient.receiveDhcpMessage, Option.filter_some, halike.isValidDhcpMessage]
      by_cases hvalid : m'.isValidDhcpMessage opBootReply c.mLastMsg.xid = true
      · rw [if_pos hvalid, if_pos hvalid]
        exact .some halike
      · rw [if_neg hvalid, if_neg hvalid]
        exact .none

/-- Steps with labels that are alike end in the same state. -/
theorem dhcpStep_alike {s t : DhcpSystem} {l l' : DhcpLabel} {es : List DhcpEvent} (h : l.Alike l')
    (hstep : dhcpStep s l = some (t, es)) :
    ∃ es', dhcpStep s l' = some (t, es') ∧ List.Forall₂ DhcpEvent.Alike es es' := by
  cases h with
  | same l => exact ⟨es, hstep, forall₂_alike_refl es⟩
  | receives startedAt halike env currentTime =>
      have hreceived := receiveDhcpMessage_alike (receivedMessage_alike halike) s.client
      simp only [dhcpStep] at hstep ⊢
      generalize s.client.receiveDhcpMessage _ = handled at hreceived hstep
      generalize s.client.receiveDhcpMessage _ = handled' at hreceived ⊢
      cases hpc : s.pc with
      | top =>
          rw [hpc] at hstep
          cases hstep
      | polling timeout =>
          rw [hpc] at hstep
          cases hreceived with
          | none =>
              cases hstep
              exact ⟨[], rfl, .nil⟩
          | some hmessage =>
              cases hstep
              have hhandled := handleMessage_alike hmessage s.client env
              refine ⟨_, ?_, hhandled.events⟩
              dsimp only
              rw [hhandled.client, hhandled.returns]

/-- Runs whose datagrams agree on the octets that the client reads go through the same states, and differ in nothing
but the octets of the messages that they name. -/
theorem unread_octets {s u : DhcpSystem} {labels labels' : List DhcpLabel} {events : List DhcpEvent}
    (halike : List.Forall₂ DhcpLabel.Alike labels labels') (hrun : exec dhcpStep s labels = some (u, events)) :
    ∃ events', exec dhcpStep s labels' = some (u, events') ∧ List.Forall₂ DhcpEvent.Alike events events' := by
  have hrelated : ∀ s s' l l' t es, s = s' → DhcpLabel.Alike l l' → dhcpStep s l = some (t, es) →
      ∃ t' es', dhcpStep s' l' = some (t', es') ∧ t = t' ∧ List.Forall₂ DhcpEvent.Alike es es' := by
    intro s s' l l' t es hs hl hstep
    subst hs
    obtain ⟨es', hstep', hes⟩ := dhcpStep_alike hl hstep
    exact ⟨t, es', hstep', rfl, hes⟩
  obtain ⟨u', events', hrun', rfl, hevents⟩ := exec_related hrelated rfl halike hrun
  exact ⟨events', hrun', hevents⟩

theorem datagramsAlike_set {d : List UInt8} {a : Nat} (h : ¬ ReadInDatagram a) (octet : UInt8) :
    DatagramsAlike d (d.set a octet) := by
  refine ⟨List.length_set.symm, fun b hb => ?_⟩
  have hne : a ≠ b := fun heq => h (heq ▸ hb)
  rw [List.getD_eq_getElem?_getD, List.getD_eq_getElem?_getD, List.getElem?_set_ne hne]

/-- An offer for the client's port. -/
def offerDatagram : List UInt8 :=
  [0x45] ++ List.replicate 8 0 ++ [ipProtoUdp] ++ List.replicate 12 0 ++ bytes16 (htons portBootpClient) ++
    List.replicate 4 0 ++ (serverReply dhcpOffer 1 5).payload

def receiveDatagram (d : List UInt8) : DhcpLabel := .poll 0 (.readable (receivedMessage (some d))) allSucceed 0

/-- The first octet of `chaddr` in an offer is none that the client reads. -/
theorem chaddr_unread : ¬ ReadInDatagram (ipSize + udpSize + chaddrOffset) := by
  rintro (h | h | h | h | ⟨i, hi, h⟩)
  all_goals
    simp only [ReadInMessage, ipSize, udpSize, chaddrOffset, xidOffset, yiaddrOffset, optionsOffset] at *
    omega

set_option maxRecDepth 10000 in
/-- The offer is taken for another hardware address, too. -/
theorem unread_octets_chaddr : ∃ u events events',
    exec dhcpStep firstStart [evaluateNow, evaluateNow, receiveDatagram offerDatagram] = some (u, events) ∧
      u.client.mState = .requesting ∧
      exec dhcpStep firstStart [evaluateNow, evaluateNow,
        receiveDatagram (offerDatagram.set (ipSize + udpSize + chaddrOffset) 0xFF)] = some (u, events') := by
  obtain ⟨u, events, hrun, hstate⟩ : ∃ u events,
      exec dhcpStep firstStart [evaluateNow, evaluateNow, receiveDatagram offerDatagram] = some (u, events) ∧
        u.client.mState = .requesting := ⟨_, _, rfl, rfl⟩
  have hset := datagramsAlike_set (d := offerDatagram) chaddr_unread 0xFF
  obtain ⟨events', hrun', -⟩ :=
    unread_octets (.cons (.same _) (.cons (.same _) (.cons (.receives 0 hset allSucceed 0) .nil)))
    hrun
  exact ⟨u, events, events', hrun, hstate, hrun'⟩

end Trout.Dhcp
