import Trout.DhcpOptions
import Trout.DhcpSteps

/-! What moves the DHCP client: the reply to the message it has sent last, of the type that its state waits
for. A bound client has been through the whole exchange since it was in Init. -/

namespace Trout.Dhcp
open CInt Runs

/-! ### The history of an exchange -/

/-- A valid reply of one type to a message of another. -/
structure Message.Answers (reply : Message) (type : UInt8) (asked : Message) (askedType : UInt8) : Prop where
  askedType : asked.type = askedType
  type : reply.type = type
  valid : reply.isValidDhcpMessage opBootReply asked.xid = true

def DhcpEvent.sent? : DhcpEvent → Option (Option Message)
  | .sent message => some (some message)
  | _ => none

/-- The message sent most recently. -/
def lastSent (events : List DhcpEvent) : Option Message := lastSet DhcpEvent.sent? none events

/-- No return to Init. -/
def NoInit (es : List DhcpEvent) : Prop := ∀ cause, DhcpEvent.moved .init cause ∉ es

def OnlyCalls (es : List DhcpEvent) : Prop := ∀ event ∈ es, event.isCall = true

/-- A DISCOVER has been sent, last of all. -/
def Discovered (h : List DhcpEvent) (asked : Message) : Prop :=
  ∃ before, h = before ++ [.sent asked] ∧ asked.type = dhcpDiscover

/-- Since the last Init a DISCOVER has been sent and answered with an offer. -/
def Offered (h : List DhcpEvent) : Prop :=
  ∃ before asked offer since, h = before ++ .sent asked :: .moved .requesting (some offer) :: since ∧
    offer.Answers dhcpOffer asked dhcpDiscover ∧ NoInit since

/-- After the offer a REQUEST has been sent, the last message of all. -/
def Requested (h : List DhcpEvent) (asked : Message) : Prop :=
  ∃ before since, h = before ++ .sent asked :: since ∧ Offered before ∧ asked.type = dhcpRequest ∧ OnlyCalls since

/-- After the offer a REQUEST has been sent and acknowledged. -/
def Exchanged (h : List DhcpEvent) : Prop :=
  ∃ earlier asked ack, h = earlier ++ [.moved .bound (some ack)] ∧ Requested earlier asked ∧
    ack.Answers dhcpAck asked dhcpRequest

theorem lastSent_append {before since : List DhcpEvent} (message : Message) (hsince : OnlyCalls since) :
    lastSent (before ++ .sent message :: since) = some message := by
  rw [lastSent, lastSet_append]
  refine lastSet_of_silent (fun event hmem => ?_) (some message)
  have hcall := hsince event hmem
  cases event with
  | sent _ => cases hcall
  | link _ => rfl
  | address _ => rfl
  | moved _ _ => rfl

theorem OnlyCalls.noInit {es : List DhcpEvent} (h : OnlyCalls es) : NoInit es :=
  fun _ hmem => Bool.noConfusion (h _ hmem)

theorem Offered.append {h es : List DhcpEvent} (ho : Offered h) (hes : NoInit es) : Offered (h ++ es) := by
  obtain ⟨before, asked, offer, since, rfl, hanswers, hsince⟩ := ho
  refine ⟨before, asked, offer, since ++ es, by simp, hanswers, fun cause hmem => ?_⟩
  rcases List.mem_append.mp hmem with hmem | hmem
  · exact hsince cause hmem
  · exact hes cause hmem

theorem Requested.append {h es : List DhcpEvent} {asked : Message} (hr : Requested h asked) (hes : OnlyCalls es) :
    Requested (h ++ es) asked := by
  obtain ⟨before, since, rfl, ho, htype, hsince⟩ := hr
  refine ⟨before, since ++ es, by simp, ho, htype, fun event hmem => ?_⟩
  rcases List.mem_append.mp hmem with hmem | hmem
  · exact hsince event hmem
  · exact hes event hmem

theorem Requested.lastSent {h : List DhcpEvent} {asked : Message} (hr : Requested h asked) :
    lastSent h = some asked := by
  obtain ⟨before, since, rfl, -, -, hsince⟩ := hr
  exact lastSent_append asked hsince

theorem Discovered.lastSent {h : List DhcpEvent} {asked : Message} (hd : Discovered h asked) :
    lastSent h = some asked := by
  obtain ⟨before, rfl, -⟩ := hd
  exact lastSent_append asked nofun

theorem Requested.type {h : List DhcpEvent} {asked : Message} (hr : Requested h asked) : asked.type = dhcpRequest := by
  obtain ⟨-, -, -, -, htype, -⟩ := hr
  exact htype

theorem Requested.offered {h : List DhcpEvent} {asked : Message} (hr : Requested h asked) : Offered h := by
  obtain ⟨before, since, rfl, ho, -, hsince⟩ := hr
  refine ho.append fun cause hmem => ?_
  rcases List.mem_cons.mp hmem with hmem | hmem
  · cases hmem
  · exact hsince.noInit cause hmem

theorem noInit_moved {state : State} {cause : Option Message} (hstate : state ≠ .init) : NoInit [.moved state cause] := by
  intro cause' hmem
  cases List.mem_singleton.mp hmem
  exact hstate rfl

theorem Exchanged.offered {h : List DhcpEvent} (he : Exchanged h) : Offered h := by
  obtain ⟨earlier, asked, ack, rfl, hr, -⟩ := he
  exact hr.offered.append (noInit_moved nofun)

/-! ### The invariant -/

/-- What has happened to a client in a state, before the `switch` or in the wait. -/
def Conversation (h : List DhcpEvent) (last : Message) : State → Pc → Prop
  | .init, .top => True
  | .init, .polling _ => False
  | .selecting, .top => True
  | .selecting, .polling _ => Discovered h last
  | .bound, _ => Exchanged h
  | _, .top => Offered h
  | _, .polling _ => Requested h last

section Conversation
variable {h es : List DhcpEvent} {last : Message} {state : State} {pc : Pc}

theorem Conversation.offered (hc : Conversation h last state pc) (hstate : state.AwaitsAck) : Offered h := by
  cases pc with
  | top => cases state <;> first | exact hc | exact hstate.elim
  | polling timeout => cases state <;> first | exact Requested.offered hc | exact hstate.elim

theorem Conversation.requested {timeout : Nat} (hc : Conversation h last state (.polling timeout))
    (hstate : state.AwaitsAck) : Requested h last := by
  cases state <;> first | exact hc | exact hstate.elim

/-- A request has been sent: the client may wait for its answer, or stop waiting. -/
theorem conversation_of_requested (hr : Requested h last) (hstate : state.AwaitsAck) (pc : Pc) :
    Conversation h last state pc := by
  cases pc with
  | top => cases state <;> first | exact hr.offered | exact hstate.elim
  | polling timeout => cases state <;> first | exact hr | exact hstate.elim

/-- A wait goes on or ends. -/
theorem Conversation.wait {timeout : Nat} (hc : Conversation h last state (.polling timeout)) (pc : Pc) :
    Conversation h last state pc := by
  by_cases hstate : state.AwaitsAck
  · exact conversation_of_requested (hc.requested hstate) hstate pc
  · cases state with
    | init => exact hc.elim
    | selecting =>
        cases pc with
        | top => trivial
        | polling _ => exact hc
    | bound => exact hc
    | requesting => exact absurd trivial hstate
    | renewing => exact absurd trivial hstate
    | rebinding => exact absurd trivial hstate

theorem Conversation.advance {c : DhcpClient} {expiredAt : Nat} {state : State} (hc : Conversation h last c.mState pc)
    (hedge : Advance c expiredAt state) : Conversation (h ++ [.moved state none]) last state .top := by
  cases hedge with
  | begin _ => trivial
  | renew here _ =>
      rw [here] at hc
      exact (Exchanged.offered hc).append (noInit_moved nofun)
  | rebind here _ => exact (hc.offered (by rw [here]; trivial)).append (noInit_moved nofun)
  | giveUp _ _ => trivial

theorem Conversation.send {c : DhcpClient} {message : Message} (hc : Conversation h last c.mState pc)
    (hsent : Sends c message) (pc' : Pc) : Conversation (h ++ [.sent message]) message c.mState pc' := by
  have hrequest (hstate : c.mState.AwaitsAck) (htype : message.type = dhcpRequest) :
      Conversation (h ++ [.sent message]) message c.mState pc' :=
    conversation_of_requested ⟨h, [], rfl, hc.offered hstate, htype, nofun⟩ hstate pc'
  cases hsent with
  | discover here =>
      rw [here]
      cases pc' with
      | top => trivial
      | polling _ => exact ⟨h, rfl, Message.type_discover _ _⟩
  | request here =>
      have hstate : c.mState.AwaitsAck := by rcases here with here | here <;> rw [here] <;> trivial
      exact hrequest hstate (Message.type_request _ _ _ _)
  | rebind here _ => exact hrequest (by rw [here]; trivial) (Message.type_request _ _ _ _)

end Conversation

/-- The message that a valid message answers is the one sent last. -/
theorem valid_of_received {c : DhcpClient} {received : Option Message} {msg : Message}
    (h : c.receiveDhcpMessage received = some msg) :
    received = some msg ∧ msg.isValidDhcpMessage opBootReply c.mLastMsg.xid = true :=
  Option.filter_eq_some_iff.mp h

theorem Conversation.handle {h es : List DhcpEvent} {c c' : DhcpClient} {msg : Message} {env : ConfigEnv} {done : Bool}
    {timeout : Nat} {pc : Pc} (hc : Conversation h c.mLastMsg c.mState (.polling timeout))
    (hvalid : msg.isValidDhcpMessage opBootReply c.mLastMsg.xid = true) (heffect : HandleEffect c msg env c' es done)
    (hpc : done = true → pc = .top) : Conversation (h ++ es) c'.mLastMsg c'.mState pc := by
  cases heffect with
  | ignores same silent =>
      rw [same, silent, List.append_nil]
      exact hc.wait pc
  | chooses here offer result event returns =>
      rw [here] at hc
      obtain ⟨before, rfl, htype⟩ := hc
      rw [result, event, hpc returns]
      exact ⟨before, c.mLastMsg, msg, [], by simp, ⟨htype, offer, hvalid⟩, nofun⟩
  | binds here ack configured result event =>
      obtain ⟨hsame, hconfig⟩ := configureDhcp_effect c msg env
      have hr := (hc.requested here).append hconfig.calls
      rw [result, event, ← List.append_assoc]
      exact ⟨_, c.mLastMsg, msg, rfl, hr, ⟨hr.type, ack, hvalid⟩⟩
  | refuses here ack failed result event =>
      obtain ⟨hsame, hconfig⟩ := configureDhcp_effect c msg env
      rw [result, event, hsame.state, hsame.lastMsg]
      exact conversation_of_requested ((hc.requested here).append hconfig.calls) here pc
  | halts here nak result event returns =>
      rw [hpc returns, result]
      trivial

theorem conversation_step {h es : List DhcpEvent} {s t : DhcpSystem} {l : DhcpLabel}
    (hc : Conversation h s.client.mLastMsg s.client.mState s.pc) (hstep : dhcpStep s l = some (t, es)) :
    Conversation (h ++ es) t.client.mLastMsg t.client.mState t.pc := by
  cases dhcpStep_effect hstep with
  | waits timeout polled same silent =>
      rw [polled] at hc
      rw [same, silent, List.append_nil]
      exact hc.wait t.pc
  | rests _ _ _ _ here timeout result silent =>
      rw [here] at hc
      rw [result, silent, List.append_nil, here]
      exact hc
  | sends _ _ _ _ message sent result event =>
      obtain ⟨hsame, -⟩ := increaseTimeout_same (s.client.sendNew message).1
      rw [result, hsame.lastMsg, hsame.state, event]
      exact hc.send sent t.pc
  | advances _ _ _ _ state edge result event again =>
      rw [result, event, again]
      exact hc.advance edge
  | handles _ _ received env label timeout polled msg valid result event again =>
      rw [polled] at hc
      rw [result, event]
      exact hc.handle (valid_of_received valid).2 (handleMessage_effect s.client msg env) again

/-! ### Replies -/

/-- What a step that ends elsewhere than it began, or that receives a message, does after a history. -/
structure ActsOnReplies (h : List DhcpEvent) (s : DhcpSystem) (l : DhcpLabel) (t : DhcpSystem) : Prop where
  caused : ∀ startedAt result env currentTime, l = .poll startedAt result env currentTime →
    t.client.mState ≠ s.client.mState → ∃ msg last, result = .readable (some msg) ∧ lastSent h = some last ∧
      msg.isValidDhcpMessage opBootReply last.xid = true
  selecting : s.client.mState = .selecting → t.client.mState ≠ .selecting →
    ∃ startedAt msg env currentTime last, l = .poll startedAt (.readable (some msg)) env currentTime ∧
      lastSent h = some last ∧ msg.Answers dhcpOffer last dhcpDiscover
  bound : s.client.mState ≠ .bound → t.client.mState = .bound →
    ∃ startedAt msg env currentTime last, l = .poll startedAt (.readable (some msg)) env currentTime ∧
      lastSent h = some last ∧ msg.Answers dhcpAck last dhcpRequest ∧ (s.client.configureDhcp msg env).2.2 = true
  deaf : s.client.mState = .init ∨ s.client.mState = .bound →
    ∀ startedAt result env currentTime, l = .poll startedAt result env currentTime → t.client = s.client

/-- A client that waits in a state of its own has sent something. -/
theorem Conversation.lastSent {h : List DhcpEvent} {last : Message} {state : State} {timeout : Nat}
    (hc : Conversation h last state (.polling timeout)) (hstate : state ≠ .bound) : lastSent h = some last := by
  cases state with
  | init => exact hc.elim
  | selecting => exact Discovered.lastSent hc
  | requesting => exact Requested.lastSent hc
  | bound => exact absurd rfl hstate
  | renewing => exact Requested.lastSent hc
  | rebinding => exact Requested.lastSent hc

theorem Advance.ne_bound {c : DhcpClient} {expiredAt : Nat} {state : State} (h : Advance c expiredAt state) :
    state ≠ .bound ∧ c.mState ≠ .selecting := by
  cases h with
  | begin here => rw [here]; exact ⟨nofun, nofun⟩
  | renew here _ => rw [here]; exact ⟨nofun, nofun⟩
  | rebind here _ => rw [here]; exact ⟨nofun, nofun⟩
  | giveUp here _ => rcases here with here | here <;> rw [here] <;> exact ⟨nofun, nofun⟩

/-- Without a transition nothing is asked of the step but that a deaf client ignores messages. -/
theorem actsOnReplies_of_same {h : List DhcpEvent} {s t : DhcpSystem} {l : DhcpLabel}
    (hsame : t.client.mState = s.client.mState)
    (hdeaf : s.client.mState = .init ∨ s.client.mState = .bound →
      ∀ startedAt result env currentTime, l = .poll startedAt result env currentTime → t.client = s.client) :
    ActsOnReplies h s l t := by
  refine ⟨?_, ?_, ?_, hdeaf⟩
  · exact fun _ _ _ _ _ hne => absurd hsame hne
  · exact fun here hne => absurd (hsame.trans here) hne
  · exact fun hne here => absurd (hsame.symm.trans here) hne

theorem not_deaf {state : State} (h : state = .selecting ∨ state.AwaitsAck) : ¬ (state = .init ∨ state = .bound) := by
  rintro (hinit | hbound)
  · rw [hinit] at h
    exact h.elim nofun id
  · rw [hbound] at h
    exact h.elim nofun id

theorem HandleEffect.actsOnReplies {h es : List DhcpEvent} {s t : DhcpSystem} {l : DhcpLabel} {startedAt currentTime : Nat}
    {env : ConfigEnv} {msg : Message} {done : Bool} {last : Message}
    (hlabel : l = .poll startedAt (.readable (some msg)) env currentTime)
    (hlast : s.client.mState ≠ .bound → lastSent h = some last)
    (htype : s.client.mState = .selecting → last.type = dhcpDiscover)
    (hrequest : s.client.mState.AwaitsAck → last.type = dhcpRequest)
    (hvalid : msg.isValidDhcpMessage opBootReply last.xid = true)
    (heffect : HandleEffect s.client msg env t.client es done) : ActsOnReplies h s l t := by
  have hcaused (hactive : s.client.mState = .selecting ∨ s.client.mState.AwaitsAck) :
      ∀ startedAt result env currentTime, l = .poll startedAt result env currentTime →
        t.client.mState ≠ s.client.mState → ∃ msg last, result = .readable (some msg) ∧ lastSent h = some last ∧
          msg.isValidDhcpMessage opBootReply last.xid = true := by
    intro _ _ _ _ hl _
    rw [hlabel] at hl
    cases hl
    exact ⟨msg, last, rfl, hlast fun hbound => not_deaf hactive (Or.inr hbound), hvalid⟩
  cases heffect with
  | ignores same _ => exact actsOnReplies_of_same (by rw [same]) fun _ _ _ _ _ _ => same
  | chooses here offer result _ _ =>
      refine ⟨hcaused (Or.inl here), fun _ _ => ?_, fun _ hbound => ?_, fun hdeaf => absurd hdeaf (not_deaf (Or.inl here))⟩
      · exact ⟨startedAt, msg, env, currentTime, last, hlabel, hlast (by rw [here]; nofun), htype here, offer, hvalid⟩
      · rw [result] at hbound
        cases hbound
  | binds here ack configured result _ =>
      have hactive : s.client.mState = .selecting ∨ s.client.mState.AwaitsAck := Or.inr here
      refine ⟨hcaused hactive, fun hselecting => ?_, fun hne _ => ?_, fun hdeaf => absurd hdeaf (not_deaf hactive)⟩
      · rw [hselecting] at here
        exact here.elim
      · exact ⟨startedAt, msg, env, currentTime, last, hlabel, hlast hne, ⟨hrequest here, ack, hvalid⟩, configured⟩
  | refuses here ack failed result _ =>
      refine actsOnReplies_of_same ?_ fun hdeaf => absurd hdeaf (not_deaf (Or.inr here))
      rw [result, (configureDhcp_effect s.client msg env).1.state]
  | halts here nak result _ _ =>
      refine ⟨hcaused (Or.inr here), fun hselecting => ?_, fun _ hbound => ?_,
        fun hdeaf => absurd hdeaf (not_deaf (Or.inr here))⟩
      · rw [hselecting] at here
        exact here.elim
      · rw [result] at hbound
        cases hbound

theorem dhcpStep_actsOnReplies {h es : List DhcpEvent} {s t : DhcpSystem} {l : DhcpLabel}
    (hc : Conversation h s.client.mLastMsg s.client.mState s.pc) (hstep : dhcpStep s l = some (t, es)) :
    ActsOnReplies h s l t := by
  cases dhcpStep_effect hstep with
  | waits _ _ same _ => exact actsOnReplies_of_same (by rw [same]) fun _ _ _ _ _ _ => same
  | rests _ _ _ label _ timeout result _ =>
      exact actsOnReplies_of_same (by rw [result]) fun _ _ _ _ _ hl => nomatch label.symm.trans hl
  | sends _ _ _ _ message sent result _ =>
      refine actsOnReplies_of_same ?_ fun hdeaf => ?_
      · rw [result, (increaseTimeout_same _).1.state]
        rfl
      · exact hdeaf.elim (absurd · sent.state.1) (absurd · sent.state.2)
  | advances _ _ _ label state edge result _ _ =>
      obtain ⟨hbound, hselecting⟩ := edge.ne_bound
      refine ⟨?_, fun here => absurd here hselecting, fun _ hto => ?_, ?_⟩
      · exact fun _ _ _ _ hl => nomatch label.symm.trans hl
      · rw [result] at hto
        exact absurd hto hbound
      · exact fun _ _ _ _ _ hl => nomatch label.symm.trans hl
  | handles startedAt currentTime received env label timeout polled msg valid result _ _ =>
      rw [polled] at hc
      obtain ⟨hreceived, hvalid⟩ := valid_of_received valid
      subst hreceived
      have heffect := handleMessage_effect s.client msg env
      rw [← result] at heffect
      refine heffect.actsOnReplies label hc.lastSent (fun here => ?_) (fun here => (hc.requested here).type) hvalid
      rw [here] at hc
      obtain ⟨-, -, htype⟩ := hc
      exact htype

variable {options : UInt32} {network : Network} {info : DhcpInfo} {requestAddress serverAddress : UInt32}
  {labels : List DhcpLabel} {s : DhcpSystem} {events : List DhcpEvent}

/-- In every run the client acts only on the reply to the message it sent last, and a bound client has been
through the whole exchange. -/
theorem acts_on_replies
    (hrun : exec dhcpStep (.start options network info requestAddress serverAddress) labels = some (s, events)) :
    (∀ l t es, dhcpStep s l = some (t, es) → ActsOnReplies events s l t) ∧
      (s.client.mState = .bound → Exchanged events) := by
  have hc : Conversation events s.client.mLastMsg s.client.mState s.pc := by
    refine exec_history (fun h s => Conversation h s.client.mLastMsg s.client.mState s.pc) ?_ ?_ hrun
    · exact fun _ _ _ _ _ hc hstep => conversation_step hc hstep
    · trivial
  refine ⟨fun _ _ _ hstep => dhcpStep_actsOnReplies hc hstep, fun hbound => ?_⟩
  rw [hbound] at hc
  exact hc

theorem acts_on_replies_acknowledged :
    ∃ s events, exec dhcpStep firstStart ackRun = some (s, events) ∧ s.client.mState = .bound ∧ Exchanged events := by
  obtain ⟨s, events, hrun, hbound⟩ : ∃ s events, exec dhcpStep firstStart ackRun = some (s, events) ∧
      s.client.mState = .bound := ⟨_, _, rfl, rfl⟩
  exact ⟨s, events, hrun, hbound, (acts_on_replies hrun).2 hbound⟩

end Trout.Dhcp
