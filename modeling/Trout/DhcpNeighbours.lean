import Trout.DhcpNetwork
import Trout.DhcpTransactions

/-! Several clients on one network. Every client numbers its messages from 1, and of a reply it looks at the transaction
id but not at the hardware address. Replies are broadcast, so one reaches all clients; it is taken by those that have
sent as many messages as the one it is for, and an acknowledgement then gives all of them one address. -/

namespace Trout.Dhcp
open RingWindow Runs

/-! ### The id of the last message -/

theorem bytes32_transactionId (m : Message) :
    bytes32 m.transactionId = [m.dhcpData (xidOffset + 3), m.dhcpData (xidOffset + 2), m.dhcpData (xidOffset + 1),
      m.dhcpData xidOffset] := by
  rw [Message.transactionId, netLoad32, or_reverse, bytes32_word]

/-- Messages with the same id have the same id on the wire. -/
theorem xid_of_transactionId {m m' : Message} (h : m.transactionId = m'.transactionId) : m.xid = m'.xid := by
  have hwords := congrArg bytes32 h
  rw [bytes32_transactionId, bytes32_transactionId] at hwords
  simp only [List.cons.injEq, and_true] at hwords
  obtain ⟨h3, h2, h1, h0⟩ := hwords
  rw [Message.xid, Message.xid, load32, load32, h0, h1, h2, h3]

/-- The last message is the one that has just been sent, or the one it was. -/
theorem dhcpStep_lastMsg {s t : DhcpSystem} {l : DhcpLabel} {es : List DhcpEvent} (hstep : dhcpStep s l = some (t, es)) :
    (sentMessages es = [] ∧ t.client.mLastMsg = s.client.mLastMsg) ∨ sentMessages es = [t.client.mLastMsg] := by
  cases dhcpStep_effect hstep with
  | waits timeout polled same silent =>
      rw [same, silent]
      exact Or.inl ⟨rfl, rfl⟩
  | rests expiredAt remainingAt adjustment label here timeout result silent =>
      rw [result, silent]
      exact Or.inl ⟨rfl, rfl⟩
  | sends expiredAt remainingAt adjustment label message sent result event =>
      obtain ⟨timeout, hnext⟩ := increaseTimeout_eq (s.client.sendNew message).1
      rw [result, event, hnext]
      exact Or.inr rfl
  | advances expiredAt remainingAt adjustment label state edge result event again =>
      rw [result, event]
      exact Or.inl ⟨rfl, rfl⟩
  | handles startedAt currentTime received env label timeout polled msg valid result event again =>
      have heffect := handleMessage_effect s.client msg env
      rw [result, event]
      exact Or.inl ⟨sentMessages_of_silent heffect.not_sent, heffect.sameMessages.2⟩

section Runs

variable {options options' : UInt32} {network network' : Network} {info info' : DhcpInfo}
  {requestAddress requestAddress' serverAddress serverAddress' : UInt32} {labels labels' : List DhcpLabel}
  {s s' : DhcpSystem} {events events' : List DhcpEvent}

/-- The id that a client expects is the number of the messages that it has sent. -/
theorem lastMsg_numbered
    (hrun : exec dhcpStep (.start options network info requestAddress serverAddress) labels = some (s, events)) :
    s.client.mLastMsg.transactionId = UInt32.ofNat (sentMessages events).length := by
  have hzero : Message.zero.transactionId = UInt32.ofNat 0 := by
    decide
  have hinvariant : s.client.sNextTransactionId = UInt32.ofNat ((sentMessages events).length + 1) ∧
      s.client.mLastMsg.transactionId = UInt32.ofNat (sentMessages events).length := by
    refine exec_history (fun h s => s.client.sNextTransactionId = UInt32.ofNat ((sentMessages h).length + 1) ∧
      s.client.mLastMsg.transactionId = UInt32.ofNat (sentMessages h).length) (fun h s l t es hI hstep => ?_)
      ⟨rfl, hzero⟩ hrun
    obtain ⟨hnext, hlast⟩ := hI
    rw [sentMessages_append, List.length_append]
    rcases dhcpStep_counts hstep with ⟨hsilent, hkept⟩ | ⟨message, hone, hnumber, -, hcounted⟩
    · rcases dhcpStep_lastMsg hstep with ⟨-, hsame⟩ | hsent
      · rw [hsilent, List.length_nil, Nat.add_zero, hkept, hsame]
        exact ⟨hnext, hlast⟩
      · rw [hsilent] at hsent
        cases hsent
    · have hmessage : t.client.mLastMsg = message := by
        rcases dhcpStep_lastMsg hstep with ⟨hsilent, -⟩ | hsent
        · rw [hone] at hsilent
          cases hsilent
        · rw [hone] at hsent
          exact (List.cons.inj hsent).1.symm
      rw [hone, List.length_singleton, hcounted, hmessage, hnumber, hnext,
        UInt32.ofNat_add ((sentMessages h).length + 1) 1]
      exact ⟨rfl, rfl⟩
  exact hinvariant.2

theorem ofNat_eq_iff {a b : Nat} : UInt32.ofNat a = UInt32.ofNat b ↔ a % 2 ^ 32 = b % 2 ^ 32 := by
  rw [← UInt32.toNat_inj, UInt32.toNat_ofNat', UInt32.toNat_ofNat']

/-- Whatever two clients have done, they expect the same replies exactly when they have sent as many messages. -/
theorem xid_eq_iff
    (hrun : exec dhcpStep (.start options network info requestAddress serverAddress) labels = some (s, events))
    (hrun' : exec dhcpStep (.start options' network' info' requestAddress' serverAddress') labels' = some (s', events')) :
    s.client.mLastMsg.xid = s'.client.mLastMsg.xid ↔
      (sentMessages events).length % 2 ^ 32 = (sentMessages events').length % 2 ^ 32 := by
  have hnumber := lastMsg_numbered hrun
  have hnumber' := lastMsg_numbered hrun'
  constructor
  · intro hxid
    have hids := transactionId_of_xid hxid
    rw [hnumber, hnumber'] at hids
    exact ofNat_eq_iff.mp hids
  · intro hcounts
    refine xid_of_transactionId ?_
    rw [hnumber, hnumber']
    exact ofNat_eq_iff.mpr hcounts

/-! ### Replies -/

/-- A reply that one client takes is taken by another one exactly when that has sent as many messages, whichever of them
it is addressed to. -/
theorem replies_taken
    (hrun : exec dhcpStep (.start options network info requestAddress serverAddress) labels = some (s, events))
    (hrun' : exec dhcpStep (.start options' network' info' requestAddress' serverAddress') labels' = some (s', events'))
    {received : Option Message} {msg : Message} (htakes : s.client.receiveDhcpMessage received = some msg) :
    s'.client.receiveDhcpMessage received = some msg ↔
      (sentMessages events).length % 2 ^ 32 = (sentMessages events').length % 2 ^ 32 := by
  rw [← xid_eq_iff hrun hrun']
  rw [DhcpClient.receiveDhcpMessage, Option.filter_eq_some_iff, Message.isValidDhcpMessage, Bool.and_eq_true,
    beq_iff_eq] at htakes
  rw [DhcpClient.receiveDhcpMessage, Option.filter_eq_some_iff, Message.isValidDhcpMessage, Bool.and_eq_true, beq_iff_eq]
  obtain ⟨hreceived, hvalid, hxid⟩ := htakes
  constructor
  · rintro ⟨-, -, hxid'⟩
    exact hxid.symm.trans hxid'
  · intro hsame
    exact ⟨hreceived, hvalid, hxid.trans hsame⟩

/-! ### Acknowledgements -/

/-- Whether an acknowledgement is accepted depends on what it says and on the calls, not on the client. -/
theorem configureDhcp_agrees {c c' : DhcpClient} {msg : Message} {env env' : ConfigEnv} (henv : env'.Succeeds)
    (haccepted : (c.configureDhcp msg env).2.2 = true) : (c'.configureDhcp msg env').2.2 = true := by
  unfold DhcpClient.configureDhcp at haccepted ⊢
  by_cases hshort : msg.optionsSize < 4
  · rw [if_pos hshort] at haccepted
    cases haccepted
  rw [if_neg hshort] at haccepted ⊢
  generalize parseOptions msg msg.optionsSize 4 .zero = parsed at haccepted ⊢
  dsimp only at haccepted ⊢
  by_cases hrejected : ¬ parsed.2
  · rw [if_pos hrejected] at haccepted
    cases haccepted
  rw [if_neg hrejected] at haccepted ⊢
  generalize ({ parsed.1 with offeredAddress := msg.yiaddr } : DhcpInfo) = info at haccepted ⊢
  rw [DhcpClient.configureLease] at haccepted ⊢
  by_cases hlease : info.leaseTime = 0
  · rw [if_pos hlease] at haccepted
    cases haccepted
  · rw [if_neg hlease]
    simp only [DhcpClient.configureNetwork, henv.bringUp, henv.setAddress, henv.setDefaultGateway, not_true_eq_false,
      if_false]
    split <;> rfl

/-- An accepted acknowledgement sets the address that it names. -/
theorem configureDhcp_address {c : DhcpClient} {msg : Message} {env : ConfigEnv}
    (haccepted : (c.configureDhcp msg env).2.2 = true) : (c.configureDhcp msg env).1.network.address = msg.yiaddr := by
  cases (configureDhcp_effect c msg env).2 with
  | rejects same silent fails =>
      rw [haccepted] at fails
      cases fails
  | raises up unaddressed event failed fails =>
      rw [haccepted] at fails
      cases fails
  | configures up configured event routed => exact configured

/-- Only an acknowledgement that has been accepted binds. -/
theorem HandleEffect.bound_event {c c' : DhcpClient} {msg cause : Message} {env : ConfigEnv} {es : List DhcpEvent}
    {done : Bool} (h : HandleEffect c msg env c' es done) (hmem : DhcpEvent.moved .bound (some cause) ∈ es) :
    cause = msg ∧ msg.type = dhcpAck ∧ (c.configureDhcp msg env).2.2 = true ∧
      c' = (c.configureDhcp msg env).1.setNextState .bound := by
  cases h with
  | ignores same silent =>
      rw [silent] at hmem
      cases hmem
  | chooses here offer result event returns =>
      rw [event] at hmem
      cases List.mem_singleton.mp hmem
  | binds here ack configured result event =>
      rw [event, List.mem_append] at hmem
      rcases hmem with hcall | hmoved
      · cases (configureDhcp_effect c msg env).2.calls _ hcall
      · cases List.mem_singleton.mp hmoved
        exact ⟨rfl, ack, configured, result⟩
  | refuses here ack failed result event =>
      rw [event] at hmem
      cases (configureDhcp_effect c msg env).2.calls _ hmem
  | halts here nak result event returns =>
      rw [event, List.mem_append] at hmem
      rcases hmem with hcall | hmoved
      · cases haltNetwork_calls c env _ hcall
      · cases List.mem_singleton.mp hmoved

theorem handleMessage_awaits {c : DhcpClient} (hawaits : c.mState.AwaitsAck) (msg : Message) (env : ConfigEnv) :
    c.handleMessage msg env = c.handleAnswer msg env := by
  unfold DhcpClient.handleMessage
  cases hstate : c.mState with
  | init => rw [hstate] at hawaits; exact hawaits.elim
  | selecting => rw [hstate] at hawaits; exact hawaits.elim
  | requesting => rfl
  | bound => rw [hstate] at hawaits; exact hawaits.elim
  | renewing => rfl
  | rebinding => rfl

/-- A broadcast acknowledgement that gives one client a lease gives it to every other one that awaits its own and has sent
as many messages: both then have the same address. -/
theorem acknowledged_together
    (hrun : exec dhcpStep (.start options network info requestAddress serverAddress) labels = some (s, events))
    (hrun' : exec dhcpStep (.start options' network' info' requestAddress' serverAddress') labels' = some (s', events'))
    (hcounts : (sentMessages events).length % 2 ^ 32 = (sentMessages events').length % 2 ^ 32)
    {received : Option Message} {startedAt startedAt' currentTime currentTime' : Nat} {env env' : ConfigEnv}
    {t : DhcpSystem} {es : List DhcpEvent}
    (hstep : dhcpStep s (.poll startedAt (.readable received) env currentTime) = some (t, es)) {msg : Message}
    (hbinds : .moved .bound (some msg) ∈ es) (hawaits : s'.client.mState.AwaitsAck) {timeout : Nat}
    (hpolling : s'.pc = .polling timeout) (hsucceeds : env'.Succeeds) :
    ∃ t' es', dhcpStep s' (.poll startedAt' (.readable received) env' currentTime') = some (t', es') ∧
      t.client.mState = .bound ∧ t'.client.mState = .bound ∧ t.client.network.address = msg.yiaddr ∧
      t'.client.network.address = msg.yiaddr := by
  cases dhcpStep_effect hstep with
  | waits timeout polled same silent =>
      rw [silent] at hbinds
      cases hbinds
  | rests expiredAt remainingAt adjustment label => cases label
  | sends expiredAt remainingAt adjustment label => cases label
  | advances expiredAt remainingAt adjustment label => cases label
  | handles _ _ _ _ label timeout polled msg' valid result event again =>
      cases label
      rw [event] at hbinds
      obtain ⟨rfl, hack, haccepted, hbound⟩ := (handleMessage_effect s.client msg' env).bound_event hbinds
      have hvalid := (replies_taken hrun hrun' valid).mpr hcounts
      have haccepted' := @configureDhcp_agrees s.client s'.client msg env env' hsucceeds haccepted
      have hhandled : s'.client.handleMessage msg env' = ((s'.client.configureDhcp msg env').1.setNextState .bound,
          (s'.client.configureDhcp msg env').2.1 ++ [.moved .bound (some msg)], true) := by
        rw [handleMessage_awaits hawaits, DhcpClient.handleAnswer]
        simp only [if_pos hack, if_pos haccepted']
      have haddress := configureDhcp_address haccepted
      have haddress' := configureDhcp_address haccepted'
      generalize s.client.configureDhcp msg env = accepted at hbound haddress
      generalize s'.client.configureDhcp msg env' = configured at hhandled haddress'
      refine ⟨⟨configured.1.setNextState .bound, .top⟩, configured.2.1 ++ [.moved .bound (some msg)], ?_, ?_, rfl, ?_,
        haddress'⟩
      · simp only [dhcpStep, hpolling, hvalid, hhandled, if_true]
      · rw [result, hbound]
        rfl
      · rw [result, hbound]
        exact haddress

end Runs

/-- A second client, with another hardware address and an address of its own to ask for. -/
def neighbourStart : DhcpSystem :=
  .start 0 { plainNetwork with macAddress := .replicate 6 2 } .zero 0 0

/-- The offer to the first client is taken by the second one. -/
theorem replies_taken_neighbour : ∃ s s' events events' offer,
    exec dhcpStep firstStart [evaluateNow, evaluateNow] = some (s, events) ∧
    exec dhcpStep neighbourStart [evaluateNow, evaluateNow] = some (s', events') ∧
    s.client.receiveDhcpMessage (some offer) = some offer ∧ s'.client.receiveDhcpMessage (some offer) = some offer := by
  obtain ⟨s, s', events, events', hrun, hrun', hone, hone'⟩ : ∃ s s' events events',
      exec dhcpStep firstStart [evaluateNow, evaluateNow] = some (s, events) ∧
      exec dhcpStep neighbourStart [evaluateNow, evaluateNow] = some (s', events') ∧
      (sentMessages events).length = 1 ∧ (sentMessages events').length = 1 := ⟨_, _, _, _, rfl, rfl, rfl, rfl⟩
  have hreply : (serverReply dhcpOffer 1 5).transactionId = UInt32.ofNat 1 := by
    decide +kernel
  have hxid : s.client.mLastMsg.xid = (serverReply dhcpOffer 1 5).xid := by
    refine xid_of_transactionId ?_
    rw [lastMsg_numbered hrun, hone, hreply]
  have hvalid : (serverReply dhcpOffer 1 5).isValidDhcpMessageOp opBootReply = true := by
    decide +kernel
  have htakes : s.client.receiveDhcpMessage (some (serverReply dhcpOffer 1 5)) = some (serverReply dhcpOffer 1 5) := by
    rw [DhcpClient.receiveDhcpMessage, Option.filter_some, Message.isValidDhcpMessage, hvalid, hxid, beq_self_eq_true]
    rfl
  exact ⟨s, s', events, events', _, hrun, hrun', htakes, (replies_taken hrun hrun' htakes).mpr (by rw [hone, hone'])⟩

/-- Both clients hear the offer to the first one; the acknowledgement for the first gives both the address 5. -/
theorem acknowledged_together_neighbour : ∃ s s' t t' events events' es es',
    exec dhcpStep firstStart (ackRun.take 4) = some (s, events) ∧
    exec dhcpStep neighbourStart (ackRun.take 4) = some (s', events') ∧
    dhcpStep s (receiveReply dhcpAck 2) = some (t, es) ∧ dhcpStep s' (receiveReply dhcpAck 2) = some (t', es') ∧
    t.client.mState = .bound ∧ t'.client.mState = .bound ∧ t.client.network.address = 5 ∧
    t'.client.network.address = 5 := by
  obtain ⟨s, s', t, events, events', es, timeout, hrun, hrun', hstep, hbinds, hawaits, hpolling, hcounts⟩ :
      ∃ s s' t events events' es timeout,
        exec dhcpStep firstStart (ackRun.take 4) = some (s, events) ∧
        exec dhcpStep neighbourStart (ackRun.take 4) = some (s', events') ∧
        dhcpStep s (receiveReply dhcpAck 2) = some (t, es) ∧ .moved .bound (some (serverReply dhcpAck 2 5)) ∈ es ∧
        s'.client.mState.AwaitsAck ∧ s'.pc = .polling timeout ∧
        (sentMessages events).length % 2 ^ 32 = (sentMessages events').length % 2 ^ 32 := by
    refine ⟨_, _, _, _, _, _, _, rfl, rfl, rfl, ?_, trivial, rfl, rfl⟩
    exact List.mem_append_right _ List.mem_cons_self
  have hsucceeds : allSucceed.Succeeds := ⟨rfl, rfl, fun _ => rfl, rfl, rfl, rfl⟩
  obtain ⟨t', es', hstep', hbound, hbound', haddress, haddress'⟩ :=
    acknowledged_together hrun hrun' hcounts hstep hbinds hawaits hpolling hsucceeds
  have hfive : (serverReply dhcpAck 2 5).yiaddr = 5 := by
    decide
  exact ⟨s, s', t, t', events, events', es, es', hrun, hrun', hstep, hstep', hbound, hbound', haddress.trans hfive,
    haddress'.trans hfive⟩

end Trout.Dhcp
