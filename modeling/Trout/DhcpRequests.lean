import Trout.DhcpOptions
import Trout.DhcpSteps

/-! The addresses in a DHCPREQUEST: the one it asks for and the server it names. The client remembers both
from the offer it has accepted last. The acknowledgement may assign another address, and a request from
Rebinding puts the broadcast address in place of the server. -/

namespace Trout.Dhcp
open CInt Runs

/-! ### What the history says about a session -/

def DhcpEvent.state? : DhcpEvent → Option State
  | .moved state _ => some state
  | _ => none

def DhcpEvent.offer? : DhcpEvent → Option (Option Message)
  | .moved .requesting (some offer) => some (some offer)
  | _ => none

/-- The state of the client. -/
def stateAfter (events : List DhcpEvent) : State := lastSet DhcpEvent.state? .init events

/-- The offer accepted most recently. -/
def lastOffer (events : List DhcpEvent) : Option Message := lastSet DhcpEvent.offer? none events

/-- The address of the last `setAddress`, and the one that the last successful `configureDhcp` has set. -/
def trackLease : UInt32 × Option UInt32 → DhcpEvent → UInt32 × Option UInt32
  | acc, .address now => (now, acc.2)
  | acc, .moved .bound _ => (acc.1, some acc.1)
  | acc, _ => acc

def leasedAfter (events : List DhcpEvent) : Option UInt32 := (events.foldl trackLease (0, none)).2

theorem state?_call {event : DhcpEvent} (h : event.isCall = true) : event.state? = none := by
  cases event with
  | link _ => rfl
  | address _ => rfl
  | sent _ => cases h
  | moved _ _ => cases h

theorem offer?_call {event : DhcpEvent} (h : event.isCall = true) : event.offer? = none := by
  cases event with
  | link _ => rfl
  | address _ => rfl
  | sent _ => cases h
  | moved _ _ => cases h

/-- Calls alone lease nothing. -/
theorem trackLease_calls {es : List DhcpEvent} (h : ∀ event ∈ es, event.isCall = true) (acc : UInt32 × Option UInt32) :
    (es.foldl trackLease acc).2 = acc.2 := by
  induction es generalizing acc with
  | nil => rfl
  | cons event es ih =>
      have hrest := ih (fun e he => h e (List.mem_cons_of_mem event he))
      have hcall := h event List.mem_cons_self
      rw [List.foldl_cons, hrest]
      cases event with
      | link _ => rfl
      | address _ => rfl
      | sent _ => cases hcall
      | moved _ _ => cases hcall

/-! ### The state -/

theorem HandleEffect.state {c c' : DhcpClient} {msg : Message} {env : ConfigEnv} {es : List DhcpEvent} {done : Bool}
    (h : HandleEffect c msg env c' es done) : c'.mState = lastSet DhcpEvent.state? c.mState es := by
  cases h with
  | ignores same silent => rw [same, silent]; rfl
  | chooses _ _ result event _ => rw [result, event]; rfl
  | binds _ _ _ result event => rw [result, event, lastSet_append]; rfl
  | refuses _ _ _ result event =>
      obtain ⟨hsame, hconfig⟩ := configureDhcp_effect c msg env
      rw [result, event, hsame.state]
      exact (lastSet_of_silent (fun e he => state?_call (hconfig.calls e he)) c.mState).symm
  | halts _ _ result event _ => rw [result, event, lastSet_append]; rfl

theorem dhcpStep_state {s t : DhcpSystem} {l : DhcpLabel} {es : List DhcpEvent} (hstep : dhcpStep s l = some (t, es)) :
    t.client.mState = lastSet DhcpEvent.state? s.client.mState es := by
  cases dhcpStep_effect hstep with
  | waits _ _ same silent => rw [same, silent]; rfl
  | rests _ _ _ _ _ _ result silent => rw [result, silent]; rfl
  | sends _ _ _ _ message _ result event => rw [result, event, (increaseTimeout_same _).1.state]; rfl
  | advances _ _ _ _ _ _ result event _ => rw [result, event]; rfl
  | handles _ _ _ env _ _ _ msg _ result event _ => rw [result, event]; exact (handleMessage_effect s.client msg env).state

theorem stateAfter_step {h es : List DhcpEvent} {s t : DhcpSystem} {l : DhcpLabel} (hs : stateAfter h = s.client.mState)
    (hstep : dhcpStep s l = some (t, es)) : stateAfter (h ++ es) = t.client.mState := by
  rw [stateAfter, lastSet_append, ← stateAfter, hs, dhcpStep_state hstep]

/-! ### The requested address -/

/-- The states of a client with a lease. -/
def State.Leased : State → Prop
  | .bound => True
  | .renewing => True
  | .rebinding => True
  | _ => False

/-- A client with a lease asks for the address that it has configured. -/
def AsksForLease (h : List DhcpEvent) (c : DhcpClient) : Prop :=
  c.mState.Leased → leasedAfter h = some c.mRequestAddress

/-- An acknowledgement that is accepted assigns the address that has been requested. -/
def AssignedAsRequested (s : DhcpSystem) : DhcpLabel → Prop
  | .poll _ (.readable received) env _ => ∀ msg ∈ s.client.receiveDhcpMessage received,
      s.client.mState.AwaitsAck → msg.type = dhcpAck → (s.client.configureDhcp msg env).2.2 = true →
        msg.yiaddr = s.client.mRequestAddress
  | _ => True

theorem leasedAfter_of_calls {h es : List DhcpEvent} (hes : ∀ event ∈ es, event.isCall = true) :
    leasedAfter (h ++ es) = leasedAfter h := by
  rw [leasedAfter, List.foldl_append, trackLease_calls hes, leasedAfter]

/-- What a successful `configureDhcp` sets is leased as soon as the client is bound. -/
theorem ConfigEffect.leased {n n' : Network} {address : UInt32} {env : ConfigEnv} {es : List DhcpEvent}
    (h : ConfigEffect n address env n' es true) (history : List DhcpEvent) (cause : Option Message) :
    leasedAfter (history ++ (es ++ [.moved .bound cause])) = some address := by
  cases h with
  | rejects _ _ fails => cases fails
  | raises _ _ _ _ fails => cases fails
  | configures _ _ event _ =>
      rw [event, leasedAfter, List.foldl_append]
      rfl

theorem HandleEffect.asksForLease {h es : List DhcpEvent} {c c' : DhcpClient} {msg : Message} {env : ConfigEnv}
    {done : Bool} (heffect : HandleEffect c msg env c' es done) (hasks : AsksForLease h c)
    (hassigned : c.mState.AwaitsAck → msg.type = dhcpAck → (c.configureDhcp msg env).2.2 = true →
      msg.yiaddr = c.mRequestAddress) : AsksForLease (h ++ es) c' := by
  intro hleased
  cases heffect with
  | ignores same silent =>
      rw [same] at hleased ⊢
      rw [silent, List.append_nil]
      exact hasks hleased
  | chooses _ _ result _ _ => rw [result] at hleased; exact hleased.elim
  | binds here ack configured result event =>
      obtain ⟨hsame, hconfig⟩ := configureDhcp_effect c msg env
      have haddress := hassigned here ack configured
      rw [configured] at hconfig
      rw [event, hconfig.leased h, haddress, result, (setNextState_addresses _ _).1, hsame.requestAddress]
  | refuses _ _ _ result event =>
      obtain ⟨hsame, hconfig⟩ := configureDhcp_effect c msg env
      rw [result, hsame.state] at hleased
      rw [event, leasedAfter_of_calls hconfig.calls, result, hsame.requestAddress]
      exact hasks hleased
  | halts _ _ result _ _ => rw [result] at hleased; exact hleased.elim

theorem asksForLease_step {h es : List DhcpEvent} {s t : DhcpSystem} {l : DhcpLabel} (hasks : AsksForLease h s.client)
    (hassigned : AssignedAsRequested s l) (hstep : dhcpStep s l = some (t, es)) : AsksForLease (h ++ es) t.client := by
  cases dhcpStep_effect hstep with
  | waits _ _ same silent =>
      rw [same, silent, List.append_nil]
      exact hasks
  | rests _ _ _ _ _ _ result silent =>
      rw [result, silent, List.append_nil]
      exact hasks
  | sends _ _ _ _ message _ result event =>
      intro hleased
      obtain ⟨hsame, -⟩ := increaseTimeout_same (s.client.sendNew message).1
      rw [result, hsame.state] at hleased
      rw [event, leasedAfter, List.foldl_append, result, hsame.requestAddress]
      exact hasks hleased
  | advances _ _ _ _ state edge result event _ =>
      intro hleased
      rw [result] at hleased ⊢
      rw [event, leasedAfter, List.foldl_append]
      cases edge with
      | begin _ => exact hleased.elim
      | renew here _ => exact hasks (by rw [here]; trivial)
      | rebind here _ => exact hasks (by rw [here]; trivial)
      | giveUp _ _ => exact hleased.elim
  | handles _ _ _ env label _ _ msg valid result event _ =>
      subst label
      rw [event]
      have heffect := handleMessage_effect s.client msg env
      rw [← result] at heffect
      exact heffect.asksForLease hasks (hassigned msg valid)

variable {options : UInt32} {network : Network} {info : DhcpInfo} {requestAddress serverAddress : UInt32}
  {labels : List DhcpLabel} {s : DhcpSystem} {events : List DhcpEvent}

/-- A request to keep the lease carries the address that the last successful `configureDhcp` has set. -/
def RenewsLease (before : List DhcpEvent) (message : Message) : Prop :=
  stateAfter before = .renewing ∨ stateAfter before = .rebinding →
    ∃ address, leasedAfter before = some address ∧ message.optionData optRequestedIp = some (bytes32 address)

/-- In a run in which every accepted acknowledgement assigns the requested address, the client renews the
address in use. -/
theorem renews_lease
    (hguard : Guarded dhcpStep AssignedAsRequested (.start options network info requestAddress serverAddress) labels)
    (hrun : exec dhcpStep (.start options network info requestAddress serverAddress) labels = some (s, events)) :
    SentThroughout RenewsLease events := by
  refine sentThroughout_of_invariant (fun h s => stateAfter h = s.client.mState ∧ AsksForLease h s.client)
    RenewsLease ?_ ?_ ?_ hguard hrun
  · exact fun h s l t es hinv hg hstep => ⟨stateAfter_step hinv.1 hstep, asksForLease_step hinv.2 hg hstep⟩
  · intro h s _ _ _ message hinv _ hsent hrenewing
    rw [hinv.1] at hrenewing
    have hleased := hinv.2 (by rcases hrenewing with here | here <;> rw [here] <;> trivial)
    refine ⟨s.client.mRequestAddress, hleased, ?_⟩
    cases hsent with
    | discover here => rcases hrenewing with hother | hother <;> cases here.symm.trans hother
    | request _ => exact (Message.request_addresses _ _ _ _).1
    | rebind _ _ => exact (Message.request_addresses _ _ _ _).1
  · exact ⟨rfl, fun hleased => False.elim hleased⟩

/-- The lease is over at once; the client asks for its address again. -/
def rebindRun : List DhcpLabel := ackRun ++ [evaluateNow, evaluateNow, evaluateNow]

theorem renews_lease_acknowledged : ∃ s events, exec dhcpStep firstStart rebindRun = some (s, events) ∧
    s.client.mState = .rebinding ∧ SentThroughout RenewsLease events := by
  obtain ⟨s, events, hrun, hstate⟩ : ∃ s events, exec dhcpStep firstStart rebindRun = some (s, events) ∧
      s.client.mState = .rebinding := ⟨_, _, rfl, rfl⟩
  refine ⟨s, events, hrun, hstate, renews_lease ?_ hrun⟩
  refine guarded_cons rfl trivial (guarded_cons rfl trivial (guarded_cons rfl ?_ (guarded_cons rfl trivial
    (guarded_cons rfl ?_ (guarded_cons rfl trivial (guarded_cons rfl trivial (guarded_cons rfl trivial trivial)))))))
  · exact fun msg _ hawaits => hawaits.elim
  · intro msg hmsg _ _ _
    cases (Option.some.inj hmsg : serverReply dhcpAck 2 5 = msg)
    decide +kernel

/-- The offer is for address 5, the acknowledgement for address 6; its lease is over at once. -/
def reassignedRun : List DhcpLabel :=
  [evaluateNow, evaluateNow, receiveReply dhcpOffer 1, evaluateNow,
    .poll 0 (.readable (some (serverReply dhcpAck 2 6))) allSucceed 0, evaluateNow, evaluateNow, evaluateNow]

theorem renews_other_address :
    ∃ s events, exec dhcpStep firstStart reassignedRun = some (s, events) ∧ ¬ SentThroughout RenewsLease events := by
  obtain ⟨s, before, message, hrun, hstate, hleased, hrequested⟩ : ∃ s before message,
      exec dhcpStep firstStart reassignedRun = some (s, before ++ [.sent message]) ∧ stateAfter before = .rebinding ∧
        leasedAfter before = some 6 ∧ message.optionData optRequestedIp = some (bytes32 5) :=
    ⟨_, [_, _, _, _, _, _, _, _, _], _, rfl, rfl, rfl, by decide +kernel⟩
  refine ⟨s, before ++ [.sent message], hrun, fun hall => ?_⟩
  obtain ⟨address, haddress, hother⟩ := hall before (.sent message) [] rfl message rfl (Or.inr hstate)
  rw [hleased, Option.some.injEq] at haddress
  rw [hrequested, ← haddress] at hother
  exact absurd hother (by decide)

/-! ### The server -/

/-- While an offer is being followed, the client remembers the server that it carries. -/
def RemembersServer (h : List DhcpEvent) (c : DhcpClient) : Prop :=
  c.mState.AwaitsAck ∨ c.mState = .bound →
    ∃ offer, lastOffer h = some offer ∧ offer.optionData optServerId = some (bytes32 c.mServerAddress)

/-- An offer that is accepted carries the identifier of its server, and no request is sent from Rebinding, unless the
server is known as the broadcast address. -/
def ServerNamed (s : DhcpSystem) : DhcpLabel → Prop
  | .evaluate _ _ _ =>
      s.client.mState = .rebinding → s.client.mNextTimeout < maxTimeout → s.client.mServerAddress = inaddrBroadcast
  | .poll _ (.readable received) _ _ => ∀ msg ∈ s.client.receiveDhcpMessage received,
      s.client.mState = .selecting → msg.type = dhcpOffer →
        ∃ address, msg.optionData optServerId = some (bytes32 address)
  | _ => True

theorem lastOffer_of_calls {h es : List DhcpEvent} (hes : ∀ event ∈ es, event.isCall = true) :
    lastOffer (h ++ es) = lastOffer h := by
  rw [lastOffer, lastSet_append]
  exact lastSet_of_silent (fun e he => offer?_call (hes e he)) _

theorem HandleEffect.remembersServer {h es : List DhcpEvent} {c c' : DhcpClient} {msg : Message} {env : ConfigEnv}
    {done : Bool} (heffect : HandleEffect c msg env c' es done) (hserver : RemembersServer h c)
    (hnamed : c.mState = .selecting → msg.type = dhcpOffer →
      ∃ address, msg.optionData optServerId = some (bytes32 address)) : RemembersServer (h ++ es) c' := by
  intro hstate
  cases heffect with
  | ignores same silent =>
      rw [same] at hstate ⊢
      rw [silent, List.append_nil]
      exact hserver hstate
  | chooses here offer result event _ =>
      obtain ⟨address, hcarried⟩ := hnamed here offer
      refine ⟨msg, ?_, ?_⟩
      · rw [event, lastOffer, lastSet_append]
        rfl
      · rw [result, (setNextState_addresses _ _).2]
        dsimp only
        rw [Message.serverId_of_optionData hcarried, hcarried]
  | binds here _ _ result event =>
      obtain ⟨hsame, hconfig⟩ := configureDhcp_effect c msg env
      obtain ⟨offer, hlast, hid⟩ := hserver (Or.inl here)
      refine ⟨offer, ?_, ?_⟩
      · rw [event, ← List.append_assoc, lastOffer, lastSet_append, ← lastOffer, lastOffer_of_calls hconfig.calls, hlast]
        rfl
      · rw [result, (setNextState_addresses _ _).2, hsame.serverAddress, hid]
  | refuses here _ _ result event =>
      obtain ⟨hsame, hconfig⟩ := configureDhcp_effect c msg env
      rw [event, lastOffer_of_calls hconfig.calls, result, hsame.serverAddress]
      exact hserver (Or.inl here)
  | halts _ _ result _ _ =>
      rw [result] at hstate
      exact hstate.elim False.elim nofun

theorem remembersServer_step {h es : List DhcpEvent} {s t : DhcpSystem} {l : DhcpLabel}
    (hserver : RemembersServer h s.client) (hnamed : ServerNamed s l) (hstep : dhcpStep s l = some (t, es)) :
    RemembersServer (h ++ es) t.client := by
  cases dhcpStep_effect hstep with
  | waits _ _ same silent =>
      rw [same, silent, List.append_nil]
      exact hserver
  | rests _ _ _ _ _ _ result silent =>
      rw [result, silent, List.append_nil]
      exact hserver
  | sends _ _ _ _ message _ result event =>
      intro hstate
      obtain ⟨hsame, -⟩ := increaseTimeout_same (s.client.sendNew message).1
      rw [result, hsame.state] at hstate
      rw [event, lastOffer, lastSet_append, result, hsame.serverAddress]
      exact hserver hstate
  | advances _ _ _ _ state edge result event _ =>
      intro hstate
      rw [result] at hstate ⊢
      have hoffer : lastOffer (h ++ [.moved state none]) = lastOffer h := by
        rw [lastOffer, lastSet_append]
        cases state <;> rfl
      rw [event, hoffer, (setNextState_addresses _ _).2]
      cases edge with
      | begin _ => exact hstate.elim False.elim nofun
      | renew here _ => exact hserver (Or.inr here)
      | rebind here _ => exact hserver (Or.inl (by rw [here]; trivial))
      | giveUp _ _ => exact hstate.elim False.elim nofun
  | handles _ _ _ env label _ _ msg valid result event _ =>
      subst label
      have heffect := handleMessage_effect s.client msg env
      rw [← result, ← event] at heffect
      exact heffect.remembersServer hserver (hnamed msg valid)

/-- A request names no server, or the server of the offer accepted most recently. -/
def NamesOfferer (before : List DhcpEvent) (message : Message) : Prop :=
  message.type = dhcpRequest → ∃ offer, lastOffer before = some offer ∧
    (message.optionData optServerId = none ∨ message.optionData optServerId = offer.optionData optServerId)

/-- In a run in which every accepted offer names its server and no request is sent from Rebinding, every request names
the server of the last offer. -/
theorem names_offerer
    (hguard : Guarded dhcpStep ServerNamed (.start options network info requestAddress serverAddress) labels)
    (hrun : exec dhcpStep (.start options network info requestAddress serverAddress) labels = some (s, events)) :
    SentThroughout NamesOfferer events := by
  refine sentThroughout_of_invariant (fun h s => RemembersServer h s.client) NamesOfferer ?_ ?_ ?_ hguard hrun
  · exact fun h s l t es hserver hg hstep => remembersServer_step hserver hg hstep
  · intro h s _ _ _ message hserver hg hsent htype
    cases hsent with
    | discover _ =>
        rw [Message.type_discover] at htype
        cases htype
    | request here =>
        have hstate : s.client.mState.AwaitsAck := by rcases here with here | here <;> rw [here] <;> trivial
        obtain ⟨offer, hlast, hid⟩ := hserver (Or.inl hstate)
        exact ⟨offer, hlast, Or.inr (by rw [hid, (Message.request_addresses _ _ _ _).2])⟩
    | rebind here left =>
        obtain ⟨offer, hlast, hid⟩ := hserver (Or.inl (by rw [here]; trivial))
        exact ⟨offer, hlast, Or.inr (by rw [hid, hg here left, (Message.request_addresses _ _ _ _).2])⟩
  · exact fun hstate => False.elim (hstate.elim id nofun)

theorem names_offerer_acknowledged : ∃ s events, exec dhcpStep firstStart ackRun = some (s, events) ∧
    s.client.mState = .bound ∧ SentThroughout NamesOfferer events := by
  obtain ⟨s, events, hrun, hstate⟩ : ∃ s events, exec dhcpStep firstStart ackRun = some (s, events) ∧
      s.client.mState = .bound := ⟨_, _, rfl, rfl⟩
  refine ⟨s, events, hrun, hstate, names_offerer ?_ hrun⟩
  refine guarded_cons rfl nofun (guarded_cons rfl nofun (guarded_cons rfl ?_ (guarded_cons rfl nofun
    (guarded_cons rfl (fun _ _ here => nomatch here) trivial))))
  intro msg hmsg _ _
  cases (Option.some.inj hmsg : serverReply dhcpOffer 1 5 = msg)
  exact ⟨1, by decide +kernel⟩

/-- The offer does not say who makes it. -/
def anonymousRun : List DhcpLabel :=
  [evaluateNow, evaluateNow,
    .poll 0 (.readable (some (Message.make opBootReply (.replicate 6 1) dhcpOffer 1).endOptions)) allSucceed 0,
    evaluateNow]

/-- A request that names a server other than that of the last offer. -/
theorem not_namesOfferer {before : List DhcpEvent} {message offer : Message} {address : UInt32}
    (htype : message.type = dhcpRequest) (hoffer : lastOffer before = some offer)
    (hserver : message.optionData optServerId = some (bytes32 address))
    (hother : offer.optionData optServerId ≠ some (bytes32 address)) :
    ¬ SentThroughout NamesOfferer (before ++ [.sent message]) := by
  intro hall
  obtain ⟨last, hlast, hnamed⟩ := hall before (.sent message) [] rfl message rfl htype
  rw [hoffer, Option.some.injEq] at hlast
  rw [hserver, ← hlast] at hnamed
  rcases hnamed with hnone | hsame
  · cases hnone
  · exact hother hsame.symm

/-- A request from Rebinding names the broadcast address, and one for an anonymous offer names the address 0. -/
theorem names_other_server :
    (∃ s events, exec dhcpStep firstStart rebindRun = some (s, events) ∧ ¬ SentThroughout NamesOfferer events) ∧
      ∃ s events, exec dhcpStep firstStart anonymousRun = some (s, events) ∧ ¬ SentThroughout NamesOfferer events := by
  constructor
  · obtain ⟨s, before, message, offer, hrun, htype, hoffer, hid, hserver⟩ : ∃ s before message offer,
        exec dhcpStep firstStart rebindRun = some (s, before ++ [.sent message]) ∧ message.type = dhcpRequest ∧
          lastOffer before = some offer ∧ offer.optionData optServerId = some (bytes32 1) ∧
            message.optionData optServerId = some (bytes32 inaddrBroadcast) :=
      ⟨_, [_, _, _, _, _, _, _, _, _], _, _, rfl, by decide +kernel, rfl, by decide +kernel, by decide +kernel⟩
    exact ⟨s, _, hrun, not_namesOfferer htype hoffer hserver (by rw [hid]; decide)⟩
  · obtain ⟨s, before, message, offer, hrun, htype, hoffer, hid, hserver⟩ : ∃ s before message offer,
        exec dhcpStep firstStart anonymousRun = some (s, before ++ [.sent message]) ∧ message.type = dhcpRequest ∧
          lastOffer before = some offer ∧ offer.optionData optServerId = none ∧
            message.optionData optServerId = some (bytes32 0) :=
      ⟨_, [_, _, _], _, _, rfl, by decide +kernel, rfl, by decide +kernel, by decide +kernel⟩
    exact ⟨s, _, hrun, not_namesOfferer htype hoffer hserver (by rw [hid]; exact Option.some_ne_none _ |>.symm)⟩

end Trout.Dhcp
