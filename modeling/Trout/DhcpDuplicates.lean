import Trout.DhcpReplies
import Trout.DhcpTransactions

/-! Datagrams that are lost, repeated or late. Whatever the network makes of the replies, each message of the client is
answered once at most: a reply that moves the client on is one to its last message, and before the next reply can do
so the client has sent another message. -/

namespace Trout.Dhcp
open CInt Runs

/-! ### Messages and their answers -/

/-- The replies that have moved the client on, each with the number of messages sent before it. -/
def answeredFrom (sent : Nat) : List DhcpEvent → List (Nat × Message)
  | [] => []
  | .sent _ :: es => answeredFrom (sent + 1) es
  | .moved _ (some reply) :: es => (sent, reply) :: answeredFrom sent es
  | .moved _ none :: es => answeredFrom sent es
  | .link _ :: es => answeredFrom sent es
  | .address _ :: es => answeredFrom sent es

def answered (events : List DhcpEvent) : List (Nat × Message) := answeredFrom 0 events

theorem answeredFrom_append (sent : Nat) (h es : List DhcpEvent) :
    answeredFrom sent (h ++ es) = answeredFrom sent h ++ answeredFrom (sent + (sentMessages h).length) es := by
  induction h generalizing sent with
  | nil => rfl
  | cons event h ih =>
      cases event with
      | link up => exact ih sent
      | address address => exact ih sent
      | sent message =>
          have hlength : sent + (sentMessages (.sent message :: h)).length = sent + 1 + (sentMessages h).length := by
            rw [Nat.add_assoc, Nat.add_comm 1]
            rfl
          rw [hlength]
          exact ih (sent + 1)
      | moved state cause =>
          cases cause with
          | none => exact ih sent
          | some reply => exact congrArg ((sent, reply) :: ·) (ih sent)

theorem answered_append (h es : List DhcpEvent) :
    answered (h ++ es) = answered h ++ answeredFrom (sentMessages h).length es := by
  rw [answered, answeredFrom_append, Nat.zero_add]
  rfl

/-- Calls on the interface neither send nor answer. -/
theorem answeredFrom_calls {es : List DhcpEvent} (h : ∀ event ∈ es, event.isCall = true) (sent : Nat) :
    answeredFrom sent es = [] ∧ sentMessages es = [] := by
  induction es with
  | nil => exact ⟨rfl, rfl⟩
  | cons event es ih =>
      have hcall := h event List.mem_cons_self
      have hrest := ih fun e he => h e (List.mem_cons_of_mem event he)
      cases event with
      | link up => exact hrest
      | address address => exact hrest
      | sent message => cases hcall
      | moved state cause => cases hcall

/-- The last of the messages sent. -/
theorem getLast_sentMessages (h : List DhcpEvent) : (sentMessages h).getLast? = lastSent h := by
  induction h using List.reverseRecOn with
  | nil => rfl
  | append_singleton h event ih =>
      rw [sentMessages_append, lastSent, lastSet_append, List.getLast?_append]
      change _ = lastSet DhcpEvent.sent? (lastSent h) [event]
      cases event with
      | link up => exact ih
      | address address => exact ih
      | sent message => rfl
      | moved state cause => exact ih

/-- The reply is one to the message of that number. -/
def AnswersNumber (messages : List Message) (p : Nat × Message) : Prop :=
  ∃ asked, 0 < p.1 ∧ messages[p.1 - 1]? = some asked ∧ p.2.isValidDhcpMessage opBootReply asked.xid = true

theorem AnswersNumber.append {messages : List Message} {p : Nat × Message} (h : AnswersNumber messages p)
    (more : List Message) : AnswersNumber (messages ++ more) p := by
  obtain ⟨asked, hpos, hat, hvalid⟩ := h
  refine ⟨asked, hpos, ?_, hvalid⟩
  rw [List.getElem?_append_left (List.getElem?_eq_some_iff.mp hat).1]
  exact hat

/-! ### The invariant -/

/-- No message has been answered twice, and the last one not yet when the client waits for an answer. -/
structure AnsweredOnce (h : List DhcpEvent) (s : DhcpSystem) : Prop where
  conversation : Conversation h s.client.mLastMsg s.client.mState s.pc
  increasing : ((answered h).map Prod.fst).Pairwise (· < ·)
  bounded : ∀ p ∈ answered h, p.1 ≤ (sentMessages h).length
  answers : ∀ p ∈ answered h, AnswersNumber (sentMessages h) p
  pending : s.pc ≠ .top → s.client.mState ≠ .bound → ∀ p ∈ answered h, p.1 < (sentMessages h).length

section Steps

variable {h es : List DhcpEvent} {s t : DhcpSystem} {l : DhcpLabel}

/-- A step that sends nothing and is moved on by nothing. -/
theorem AnsweredOnce.quiet (honce : AnsweredOnce h s) (hconversation : Conversation (h ++ es) t.client.mLastMsg
    t.client.mState t.pc) (hanswered : answeredFrom (sentMessages h).length es = []) (hsent : sentMessages es = [])
    (hopen : t.pc ≠ .top → t.client.mState ≠ .bound → s.pc ≠ .top ∧ s.client.mState ≠ .bound) :
    AnsweredOnce (h ++ es) t := by
  have hsame : answered (h ++ es) = answered h := by rw [answered_append, hanswered, List.append_nil]
  have hmessages : sentMessages (h ++ es) = sentMessages h := by rw [sentMessages_append, hsent, List.append_nil]
  refine ⟨hconversation, ?_, ?_, ?_, fun hpc hstate => ?_⟩
  · rw [hsame]
    exact honce.increasing
  · rw [hsame, hmessages]
    exact honce.bounded
  · rw [hsame, hmessages]
    exact honce.answers
  · rw [hsame, hmessages]
    exact honce.pending (hopen hpc hstate).1 (hopen hpc hstate).2

/-- A message is sent, which no reply has answered yet. -/
theorem AnsweredOnce.sends (honce : AnsweredOnce h s) {message : Message} (hconversation : Conversation
    (h ++ [.sent message]) t.client.mLastMsg t.client.mState t.pc) : AnsweredOnce (h ++ [.sent message]) t := by
  have hsame : answered (h ++ [.sent message]) = answered h := by
    rw [answered_append]
    exact List.append_nil _
  have hmessages : sentMessages (h ++ [.sent message]) = sentMessages h ++ [message] := sentMessages_append h _
  refine ⟨hconversation, ?_, fun p hp => ?_, fun p hp => ?_, fun _ _ p hp => ?_⟩
  · rw [hsame]
    exact honce.increasing
  · rw [hsame] at hp
    rw [hmessages, List.length_append]
    exact Nat.le_add_right_of_le (honce.bounded p hp)
  · rw [hsame] at hp
    rw [hmessages]
    exact (honce.answers p hp).append _
  · rw [hsame] at hp
    rw [hmessages, List.length_append]
    exact Nat.lt_succ_of_le (honce.bounded p hp)

/-- A reply to the last message moves the client on, and nothing else can before the next message. -/
theorem AnsweredOnce.moves (honce : AnsweredOnce h s) {timeout : Nat} (hpolling : s.pc = .polling timeout)
    (hstate : s.client.mState ≠ .bound) {msg : Message}
    (hvalid : msg.isValidDhcpMessage opBootReply s.client.mLastMsg.xid = true)
    {calls : List DhcpEvent} (hcalls : ∀ event ∈ calls, event.isCall = true) {state : State}
    (hconversation : Conversation (h ++ (calls ++ [.moved state (some msg)])) t.client.mLastMsg t.client.mState t.pc)
    (hdone : t.pc = .top ∨ t.client.mState = .bound) : AnsweredOnce (h ++ (calls ++ [.moved state (some msg)])) t := by
  obtain ⟨hnone, hsilent⟩ := answeredFrom_calls hcalls (sentMessages h).length
  have hsame : answered (h ++ (calls ++ [.moved state (some msg)])) = answered h ++ [((sentMessages h).length, msg)] := by
    rw [answered_append, answeredFrom_append, hnone, hsilent]
    rfl
  have hmessages : sentMessages (h ++ (calls ++ [.moved state (some msg)])) = sentMessages h := by
    rw [sentMessages_append, sentMessages_append, hsilent]
    exact List.append_nil _
  have hopen : ∀ p ∈ answered h, p.1 < (sentMessages h).length :=
    honce.pending (by rw [hpolling]; exact Pc.noConfusion) hstate
  have hlast : (sentMessages h).getLast? = some s.client.mLastMsg := by
    have hc := honce.conversation
    rw [hpolling] at hc
    rw [getLast_sentMessages]
    exact hc.lastSent hstate
  refine ⟨hconversation, ?_, fun p hp => ?_, fun p hp => ?_, fun hpc hbound => ?_⟩
  · rw [hsame, List.map_append, List.pairwise_append]
    refine ⟨honce.increasing, List.pairwise_singleton _ _, fun a ha b hb => ?_⟩
    obtain ⟨p, hp, rfl⟩ := List.mem_map.mp ha
    rw [List.mem_singleton.mp hb]
    exact hopen p hp
  · rw [hmessages]
    rw [hsame, List.mem_append, List.mem_singleton] at hp
    rcases hp with hold | rfl
    · exact honce.bounded p hold
    · exact le_refl _
  · rw [hmessages]
    rw [hsame, List.mem_append, List.mem_singleton] at hp
    rcases hp with hold | rfl
    · exact honce.answers p hold
    · refine ⟨s.client.mLastMsg, ?_, ?_, hvalid⟩
      · exact List.length_pos_iff.mpr fun hempty => by rw [hempty] at hlast; cases hlast
      · rw [← List.getLast?_eq_getElem?]
        exact hlast
  · exact hdone.elim (absurd · hpc) (absurd · hbound)

theorem answeredOnce_step (honce : AnsweredOnce h s) (hstep : dhcpStep s l = some (t, es)) : AnsweredOnce (h ++ es) t := by
  have hconversation := conversation_step honce.conversation hstep
  cases dhcpStep_effect hstep with
  | waits timeout polled same silent =>
      subst silent
      refine honce.quiet hconversation rfl rfl fun _ hbound => ⟨by rw [polled]; exact Pc.noConfusion, ?_⟩
      rwa [same] at hbound
  | rests expiredAt remainingAt adjustment label here timeout result silent =>
      subst silent
      refine honce.quiet hconversation rfl rfl fun _ hbound => absurd ?_ hbound
      rw [result]
      exact here
  | sends expiredAt remainingAt adjustment label message sent result event =>
      subst event
      exact honce.sends hconversation
  | advances expiredAt remainingAt adjustment label state edge result event again =>
      subst event
      exact honce.quiet hconversation rfl rfl fun hpc => absurd again hpc
  | handles startedAt currentTime received env label timeout polled msg valid result event again =>
      obtain ⟨-, hvalid⟩ := valid_of_received valid
      have hwaiting : s.pc ≠ .top := by
        rw [polled]
        exact Pc.noConfusion
      have heffect := handleMessage_effect s.client msg env
      generalize s.client.handleMessage msg env = r at result event again heffect
      subst event
      cases heffect with
      | ignores same silent =>
          rw [silent] at hconversation ⊢
          refine honce.quiet hconversation rfl rfl fun _ hbound => ⟨hwaiting, ?_⟩
          rwa [result, same] at hbound
      | chooses here offer chosen event returns =>
          rw [event] at hconversation ⊢
          have hnone : ∀ e ∈ ([] : List DhcpEvent), e.isCall = true := fun e he => absurd he List.not_mem_nil
          exact honce.moves polled (by rw [here]; exact State.noConfusion) hvalid hnone hconversation
            (Or.inl (again returns))
      | binds here ack configured bound event =>
          rw [event] at hconversation ⊢
          refine honce.moves polled (fun hbound => ?_) hvalid (configureDhcp_effect s.client msg env).2.calls hconversation
            (Or.inr ?_)
          · rw [hbound] at here
            exact here
          · rw [result, bound]
            rfl
      | refuses here ack failed refused event =>
          obtain ⟨hsame, hconfig⟩ := configureDhcp_effect s.client msg env
          obtain ⟨hnone, hsilent⟩ := answeredFrom_calls hconfig.calls (sentMessages h).length
          rw [event] at hconversation ⊢
          refine honce.quiet hconversation hnone hsilent fun _ hbound => ⟨hwaiting, ?_⟩
          rwa [result, refused, hsame.state] at hbound
      | halts here nak halted event returns =>
          rw [event] at hconversation ⊢
          refine honce.moves polled (fun hbound => ?_) hvalid (haltNetwork_calls s.client env) hconversation
            (Or.inl (again returns))
          rw [hbound] at here
          exact here

end Steps

variable {options : UInt32} {network : Network} {info : DhcpInfo} {requestAddress serverAddress : UInt32}
  {labels : List DhcpLabel} {s : DhcpSystem} {events : List DhcpEvent}

/-- In every run, however datagrams are repeated and reordered, a reply that moves the client on is one to the message
that was sent last before it, and no message is answered twice. -/
theorem answered_once
    (hrun : exec dhcpStep (.start options network info requestAddress serverAddress) labels = some (s, events)) :
    ((answered events).map Prod.fst).Pairwise (· < ·) ∧ ∀ p ∈ answered events, AnswersNumber (sentMessages events) p := by
  have honce : AnsweredOnce events s := by
    refine exec_history AnsweredOnce (fun h s l t es hI hstep => answeredOnce_step hI hstep) ?_ hrun
    exact ⟨trivial, .nil, fun p hp => absurd hp List.not_mem_nil, fun p hp => absurd hp List.not_mem_nil,
      fun _ _ p hp => absurd hp List.not_mem_nil⟩
  exact ⟨honce.increasing, honce.answers⟩

/-- The exchange of two messages, with the offer repeated after it has been taken. -/
def repeatedOffer : List DhcpLabel :=
  [evaluateNow, evaluateNow, receiveReply dhcpOffer 1, evaluateNow, receiveReply dhcpOffer 1, receiveReply dhcpAck 2]

theorem answered_once_repeated : ∃ s events, exec dhcpStep firstStart repeatedOffer = some (s, events) ∧
    (answered events).map Prod.fst = [1, 2] ∧ ((answered events).map Prod.fst).Pairwise (· < ·) ∧
    ∀ p ∈ answered events, AnswersNumber (sentMessages events) p := by
  obtain ⟨s, events, hrun, hnumbers⟩ : ∃ s events, exec dhcpStep firstStart repeatedOffer = some (s, events) ∧
      (answered events).map Prod.fst = [1, 2] := ⟨_, _, rfl, rfl⟩
  exact ⟨s, events, hrun, hnumbers, answered_once hrun⟩

end Trout.Dhcp
