import Trout.DhcpExchange

/-! The transaction ids of the messages that a client sends. `sNextTransactionId` is counted on by the constructor of
every message, whatever state it is sent from, so that a reply can be told from one to any earlier message. -/

namespace Trout.Dhcp
open RingWindow Runs

/-! ### The id of a message -/

/-- The transaction id in host order. -/
def Message.transactionId (m : Message) : UInt32 := netLoad32 m.dhcpData xidOffset

theorem bytes32_word (a b c d : UInt8) :
    bytes32 (a.toUInt32 ||| b.toUInt32 <<< 8 ||| c.toUInt32 <<< 16 ||| d.toUInt32 <<< 24) = [a, b, c, d] := by
  have hbyte : ∀ x y : UInt8, (∀ i : Fin 8, x.toBitVec.getLsbD i = y.toBitVec.getLsbD i) → x = y := by
    intro x y h
    apply UInt8.eq_of_toBitVec_eq
    apply BitVec.eq_of_getLsbD_eq
    intro i hi
    exact h ⟨i, hi⟩
  rw [bytes32, List.cons.injEq, List.cons.injEq, List.cons.injEq, List.cons.injEq]
  refine ⟨hbyte _ _ fun i => ?_, hbyte _ _ fun i => ?_, hbyte _ _ fun i => ?_, hbyte _ _ fun i => ?_, rfl⟩
  all_goals fin_cases i <;> simp

theorem bytes32_load32 (mem : Nat → UInt8) (i : Nat) : bytes32 (load32 mem i) = slice mem i 4 := bytes32_word _ _ _ _

/-- Messages with the same id on the wire have the same id. -/
theorem transactionId_of_xid {m m' : Message} (h : m.xid = m'.xid) : m.transactionId = m'.transactionId := by
  have hwords := congrArg bytes32 h
  rw [Message.xid, Message.xid, bytes32_load32, bytes32_load32] at hwords
  refine netLoad32_congr fun k hk => ?_
  have hat := congrArg (fun bytes => bytes.getD k 0) hwords
  rwa [slice_getD hk, slice_getD hk] at hat

theorem or_reverse (a b c d : UInt32) : a ||| b ||| c ||| d = d ||| c ||| b ||| a := by
  rw [UInt32.or_comm _ d, UInt32.or_comm _ c, UInt32.or_comm a b, ← UInt32.or_assoc, ← UInt32.or_assoc]

theorem netLoad32_netBytes32 (x : UInt32) : netLoad32 (fun k => (netBytes32 x).getD k 0) 0 = x := by
  refine Eq.trans ?_ (word_of_bytes x)
  exact or_reverse ((x >>> 24).toUInt8.toUInt32 <<< 24) ((x >>> 16).toUInt8.toUInt32 <<< 16)
    ((x >>> 8).toUInt8.toUInt32 <<< 8) x.toUInt8.toUInt32

theorem transactionId_append {m : Message} (h : optionsOffset ≤ m.mSize) (bytes : List UInt8) :
    (m.append bytes).transactionId = m.transactionId ∧ optionsOffset ≤ (m.append bytes).mSize := by
  refine ⟨netLoad32_congr fun k hk => poke_of_lt ?_, Nat.le_add_right_of_le h⟩
  rw [optionsOffset] at h
  rw [xidOffset]
  omega

theorem transactionId_make (operation : UInt8) (macAddress : Vector UInt8 6) (type : UInt8) (transactionId : UInt32) :
    (Message.make operation macAddress type transactionId).transactionId = transactionId ∧
      optionsOffset ≤ (Message.make operation macAddress type transactionId).mSize := by
  refine ⟨?_, Nat.le_add_right _ _⟩
  refine Eq.trans (netLoad32_congr fun k hk => ?_) (netLoad32_netBytes32 transactionId)
  have hplace : xidOffset + k < flagsOffset := by
    rw [xidOffset, flagsOffset]
    omega
  have hflags : flagsOffset ≤ chaddrOffset ∧ chaddrOffset ≤ optionsOffset := by decide
  have hmade : (Message.make operation macAddress type transactionId).dhcpData (xidOffset + k) =
      poke (poke (fun _ => 0) 0 [operation, htypeEther, ethAlen, 0]) xidOffset (netBytes32 transactionId)
        (xidOffset + k) := by
    rw [Message.make]
    refine (poke_of_lt ?_).trans ((poke_of_lt ?_).trans (poke_of_lt hplace))
    · change xidOffset + k < optionsOffset
      omega
    · omega
  rw [hmade, Message.poke_getD (by exact hk), Nat.zero_add]

theorem transactionId_discover (sourceMac : Vector UInt8 6) (transactionId : UInt32) :
    (Message.discover sourceMac transactionId).transactionId = transactionId := by
  obtain ⟨h0, hs0⟩ := transactionId_make opBootRequest sourceMac dhcpDiscover transactionId
  obtain ⟨h1, hs1⟩ := transactionId_append hs0 _
  obtain ⟨h2, -⟩ := transactionId_append hs1 [optEnd]
  exact h2.trans (h1.trans h0)

theorem transactionId_request (sourceMac : Vector UInt8 6) (transactionId requestAddress serverAddress : UInt32) :
    (Message.request sourceMac transactionId requestAddress serverAddress).transactionId = transactionId := by
  obtain ⟨h0, hs0⟩ := transactionId_make opBootRequest sourceMac dhcpRequest transactionId
  obtain ⟨h1, hs1⟩ := transactionId_append hs0 _
  obtain ⟨h2, hs2⟩ := transactionId_append hs1 _
  obtain ⟨h3, hs3⟩ := transactionId_append hs2 _
  obtain ⟨h4, -⟩ := transactionId_append hs3 [optEnd]
  exact h4.trans (h3.trans (h2.trans (h1.trans h0)))

/-! ### Messages sent -/

/-- The messages of a run, in the order in which they are sent. -/
def sentMessages (events : List DhcpEvent) : List Message :=
  events.filterMap fun
    | .sent message => some message
    | _ => none

theorem sentMessages_append (h es : List DhcpEvent) : sentMessages (h ++ es) = sentMessages h ++ sentMessages es :=
  List.filterMap_append

theorem sentMessages_of_silent {es : List DhcpEvent} (h : ∀ message, DhcpEvent.sent message ∉ es) :
    sentMessages es = [] := by
  refine List.filterMap_eq_nil_iff.mpr fun event hevent => ?_
  cases event with
  | link up => rfl
  | address address => rfl
  | sent message => exact absurd hevent (h message)
  | moved state cause => rfl

/-- A message that a server takes for one of a client. -/
structure Message.FromClient (m : Message) : Prop where
  valid : m.isValidDhcpMessageOp opBootRequest = true
  type : m.type = dhcpDiscover ∨ m.type = dhcpRequest
  size : m.mSize ≤ messageCapacity

theorem Sends.transactionId {c : DhcpClient} {message : Message} (h : Sends c message) :
    message.transactionId = c.sNextTransactionId ∧ message.FromClient := by
  have hdiscover := Message.discover_roundTrips c.network.macAddress c.sNextTransactionId
  have hrequest := Message.request_roundTrips c.network.macAddress c.sNextTransactionId c.mRequestAddress
  cases h with
  | discover here =>
      exact ⟨transactionId_discover _ _, hdiscover.valid, Or.inl (Message.type_discover _ _), hdiscover.size⟩
  | request here =>
      exact ⟨transactionId_request _ _ _ _, (hrequest _).valid, Or.inr (Message.type_request _ _ _ _), (hrequest _).size⟩
  | rebind here left =>
      exact ⟨transactionId_request _ _ _ _, (hrequest _).valid, Or.inr (Message.type_request _ _ _ _), (hrequest _).size⟩

/-- Handling a message constructs and sends none. -/
theorem HandleEffect.sameMessages {c c' : DhcpClient} {msg : Message} {env : ConfigEnv} {es : List DhcpEvent}
    {done : Bool} (h : HandleEffect c msg env c' es done) :
    c'.sNextTransactionId = c.sNextTransactionId ∧ c'.mLastMsg = c.mLastMsg := by
  have hconfigured : (c.configureDhcp msg env).1.sNextTransactionId = c.sNextTransactionId ∧
      (c.configureDhcp msg env).1.mLastMsg = c.mLastMsg := by
    obtain ⟨info, t1, t2, network, hframe⟩ := configureDhcp_frame c msg env
    rw [hframe]
    exact ⟨rfl, rfl⟩
  have hstate : ∀ (c : DhcpClient) state, (c.setNextState state).sNextTransactionId = c.sNextTransactionId ∧
      (c.setNextState state).mLastMsg = c.mLastMsg := fun _ _ => ⟨rfl, rfl⟩
  cases h with
  | ignores same silent =>
      rw [same]
      exact ⟨rfl, rfl⟩
  | chooses here offer result event returns =>
      rw [result]
      exact hstate _ _
  | binds here ack configured result event =>
      rw [result, (hstate _ _).1, (hstate _ _).2]
      exact hconfigured
  | refuses here ack failed result event =>
      rw [result]
      exact hconfigured
  | halts here nak result event returns =>
      rw [result, (hstate _ _).1, (hstate _ _).2]
      exact ⟨rfl, rfl⟩

/-- A step counts the messages that it sends, and the first is the one that is counted next. -/
theorem dhcpStep_counts {s t : DhcpSystem} {l : DhcpLabel} {es : List DhcpEvent} (hstep : dhcpStep s l = some (t, es)) :
    (sentMessages es = [] ∧ t.client.sNextTransactionId = s.client.sNextTransactionId) ∨
      ∃ message, sentMessages es = [message] ∧ message.transactionId = s.client.sNextTransactionId ∧ message.FromClient ∧
        t.client.sNextTransactionId = s.client.sNextTransactionId + 1 := by
  cases dhcpStep_effect hstep with
  | waits timeout polled same silent =>
      rw [same, silent]
      exact Or.inl ⟨rfl, rfl⟩
  | rests expiredAt remainingAt adjustment label here timeout result silent =>
      rw [result, silent]
      exact Or.inl ⟨rfl, rfl⟩
  | sends expiredAt remainingAt adjustment label message sent result event =>
      obtain ⟨timeout, hnext⟩ := increaseTimeout_eq (s.client.sendNew message).1
      rw [result, event, hnext]
      exact Or.inr ⟨message, rfl, sent.transactionId.1, sent.transactionId.2, rfl⟩
  | advances expiredAt remainingAt adjustment label state edge result event again =>
      rw [result, event]
      exact Or.inl ⟨rfl, rfl⟩
  | handles startedAt currentTime received env label timeout polled msg valid result event again =>
      have heffect := handleMessage_effect s.client msg env
      rw [result, event]
      exact Or.inl ⟨sentMessages_of_silent heffect.not_sent, heffect.sameMessages.1⟩

variable {options : UInt32} {network : Network} {info : DhcpInfo} {requestAddress serverAddress : UInt32}
  {labels : List DhcpLabel} {s : DhcpSystem} {events : List DhcpEvent}

/-- The messages of every run are numbered from 1 on, and a server takes each of them for a DHCPDISCOVER or a
DHCPREQUEST; up to the 2 ^ 32-nd, no two have the same id on the wire. -/
theorem messages_numbered
    (hrun : exec dhcpStep (.start options network info requestAddress serverAddress) labels = some (s, events)) :
    (sentMessages events).map Message.transactionId =
        (List.range (sentMessages events).length).map (fun k => UInt32.ofNat (k + 1)) ∧
      (∀ message ∈ sentMessages events, message.FromClient) ∧
      ((sentMessages events).length ≤ 2 ^ 32 → ((sentMessages events).map Message.xid).Nodup) := by
  have hinvariant : s.client.sNextTransactionId = UInt32.ofNat ((sentMessages events).length + 1) ∧
      (sentMessages events).map Message.transactionId =
        (List.range (sentMessages events).length).map (fun k => UInt32.ofNat (k + 1)) ∧
      ∀ message ∈ sentMessages events, message.FromClient := by
    refine exec_history (fun h s => s.client.sNextTransactionId = UInt32.ofNat ((sentMessages h).length + 1) ∧
      (sentMessages h).map Message.transactionId =
        (List.range (sentMessages h).length).map (fun k => UInt32.ofNat (k + 1)) ∧
      ∀ message ∈ sentMessages h, message.FromClient) (fun h s l t es hI hstep => ?_)
      ⟨rfl, rfl, fun message hmessage => absurd hmessage List.not_mem_nil⟩ hrun
    obtain ⟨hnext, hnumbers, hvalid⟩ := hI
    rcases dhcpStep_counts hstep with ⟨hsilent, hsame⟩ | ⟨message, hsent, hid, hclient, hcounted⟩
    · rw [sentMessages_append, hsilent, List.append_nil, hsame]
      exact ⟨hnext, hnumbers, hvalid⟩
    · rw [sentMessages_append, hsent, List.length_append, List.length_singleton, hcounted, hnext]
      refine ⟨?_, ?_, fun other hother => ?_⟩
      · exact (UInt32.ofNat_add _ 1).symm
      · rw [List.map_append, hnumbers, List.range_succ, List.map_append, List.map_singleton, List.map_singleton, hid,
          hnext]
      · rcases List.mem_append.mp hother with hold | hlast
        · exact hvalid other hold
        · rw [List.mem_singleton.mp hlast]
          exact hclient
  obtain ⟨-, hnumbers, hvalid⟩ := hinvariant
  refine ⟨hnumbers, hvalid, fun hfew => ?_⟩
  have hnodup : ((sentMessages events).map Message.transactionId).Nodup := by
    rw [hnumbers]
    refine List.Nodup.map_on (fun i hi j hj heq => ?_) List.nodup_range
    rw [List.mem_range] at hi hj
    have hnat := congrArg UInt32.toNat heq
    rw [UInt32.toNat_ofNat', UInt32.toNat_ofNat'] at hnat
    omega
  refine (List.nodup_map_iff_inj_on hnodup.of_map).mpr fun m hm m' hm' heq => ?_
  exact List.inj_on_of_nodup_map hnodup hm hm' (transactionId_of_xid heq)

/-- The exchange of two messages, whose ids are 1 and 2. -/
theorem messages_numbered_acknowledged : ∃ s events, exec dhcpStep firstStart ackRun = some (s, events) ∧
    (sentMessages events).length = 2 ∧ (sentMessages events).map Message.transactionId = [1, 2] ∧
    ((sentMessages events).map Message.xid).Nodup := by
  obtain ⟨s, events, hrun, hlength⟩ : ∃ s events, exec dhcpStep firstStart ackRun = some (s, events) ∧
      (sentMessages events).length = 2 := ⟨_, _, rfl, rfl⟩
  obtain ⟨hnumbers, -, hnodup⟩ := messages_numbered hrun
  refine ⟨s, events, hrun, hlength, ?_, hnodup (by rw [hlength]; decide)⟩
  rw [hnumbers, hlength]
  rfl

end Trout.Dhcp
