import Trout.DhcpSteps

/-! The interface as the DHCP client leaves it. Its state always agrees with the calls made so far. The
client sends on a raised interface as long as no server denies its request: `haltNetwork` takes the
interface down, and neither Init nor Selecting brings it up again. -/

namespace Trout.Dhcp
open CInt Runs

/-! ### The calls made so far -/

def DhcpEvent.link? : DhcpEvent → Option Bool
  | .link now => some now
  | _ => none

def DhcpEvent.address? : DhcpEvent → Option UInt32
  | .address now => some now
  | _ => none

/-- What the last `bringUp` or `bringDown` has left, after the one of `init`. -/
def linkAfter (events : List DhcpEvent) : Bool := lastSet DhcpEvent.link? true events

/-- The address of the last `setAddress`, after the one of `init`. -/
def addressAfter (events : List DhcpEvent) : UInt32 := lastSet DhcpEvent.address? 0 events

/-- The network changes by the calls among the events. -/
structure Follows (n : Network) (es : List DhcpEvent) (n' : Network) : Prop where
  link : n'.up = lastSet DhcpEvent.link? n.up es
  address : n'.address = lastSet DhcpEvent.address? n.address es

theorem Follows.trans {n n' n'' : Network} {es fs : List DhcpEvent} (h : Follows n es n') (h' : Follows n' fs n'') :
    Follows n (es ++ fs) n'' := by
  refine ⟨?_, ?_⟩
  · rw [lastSet_append, ← h.link, h'.link]
  · rw [lastSet_append, ← h.address, h'.address]

/-- A transition is no call. -/
theorem Follows.moved {n n' : Network} {es : List DhcpEvent} (h : Follows n es n') (state : State)
    (cause : Option Message) : Follows n (es ++ [.moved state cause]) n' := h.trans ⟨rfl, rfl⟩

theorem ConfigEffect.follows {n n' : Network} {address : UInt32} {env : ConfigEnv} {es : List DhcpEvent}
    {success : Bool} (h : ConfigEffect n address env n' es success) : Follows n es n' := by
  cases h with
  | rejects same silent _ =>
      subst same silent
      exact ⟨rfl, rfl⟩
  | raises up unaddressed event _ _ =>
      subst event
      exact ⟨up, unaddressed⟩
  | configures up configured event _ =>
      subst event
      exact ⟨up, configured⟩

theorem haltNetwork_follows (c : DhcpClient) (env : ConfigEnv) :
    Follows c.network (c.haltNetwork env).2 (c.haltNetwork env).1.network := by
  unfold DhcpClient.haltNetwork
  cases hset : env.setAddress <;> cases hdown : env.bringDown <;> exact ⟨rfl, rfl⟩

theorem HandleEffect.follows {c c' : DhcpClient} {msg : Message} {env : ConfigEnv} {es : List DhcpEvent}
    {done : Bool} (h : HandleEffect c msg env c' es done) : Follows c.network es c'.network := by
  cases h with
  | ignores same silent =>
      subst same silent
      exact ⟨rfl, rfl⟩
  | chooses _ _ result event _ =>
      subst result event
      exact ⟨rfl, rfl⟩
  | binds _ _ _ result event =>
      rw [result, event, setNextState_network]
      exact (configureDhcp_effect c msg env).2.follows.moved .bound (some msg)
  | refuses _ _ _ result event =>
      rw [result, event]
      exact (configureDhcp_effect c msg env).2.follows
  | halts _ _ result event _ =>
      rw [result, event, setNextState_network]
      exact (haltNetwork_follows c env).moved .init (some msg)

theorem dhcpStep_follows {s t : DhcpSystem} {l : DhcpLabel} {es : List DhcpEvent} (hstep : dhcpStep s l = some (t, es)) :
    Follows s.client.network es t.client.network := by
  cases dhcpStep_effect hstep with
  | waits _ _ same silent =>
      rw [same, silent]
      exact ⟨rfl, rfl⟩
  | rests _ _ _ _ _ timeout result silent =>
      rw [result, silent]
      exact ⟨rfl, rfl⟩
  | sends _ _ _ _ message _ result event =>
      rw [result, event, (increaseTimeout_same _).2]
      exact ⟨rfl, rfl⟩
  | advances _ _ _ _ state _ result event _ =>
      rw [result, event]
      exact ⟨rfl, rfl⟩
  | handles _ _ _ env _ _ _ msg _ result event _ =>
      rw [result, event]
      exact (handleMessage_effect s.client msg env).follows

variable {options : UInt32} {network : Network} {info : DhcpInfo} {requestAddress serverAddress : UInt32}
  {labels : List DhcpLabel} {s : DhcpSystem} {events : List DhcpEvent}

/-- In every run the state of the interface is what the last calls have left. -/
theorem network_follows
    (hrun : exec dhcpStep (.start options network info requestAddress serverAddress) labels = some (s, events)) :
    s.client.network.up = linkAfter events ∧ s.client.network.address = addressAfter events := by
  let initial : Network := { network with up := true, address := 0, subnetMask := 0 }
  have hkeep : ∀ h s l t es, Follows initial h s.client.network → dhcpStep s l = some (t, es) →
      Follows initial (h ++ es) t.client.network := fun h s l t es hf hstep => hf.trans (dhcpStep_follows hstep)
  have hend := exec_history (fun h s => Follows initial h s.client.network) hkeep ⟨rfl, rfl⟩ hrun
  exact ⟨hend.link, hend.address⟩

/-! ### Sending -/

/-- The interface is up whenever a message is sent. -/
def SendsUp (events : List DhcpEvent) : Prop :=
  Throughout (fun before event => ∀ message, event = .sent message → linkAfter before = true) events

/-- A valid message is a DHCPNAK while the client waits for the answer to a request. -/
def DhcpClient.Denies (c : DhcpClient) (msg : Message) : Prop := c.mState.AwaitsAck ∧ msg.type = dhcpNak

/-- The step handles no denial. -/
def NotDenied (s : DhcpSystem) : DhcpLabel → Prop
  | .poll _ (.readable received) _ _ => ∀ msg ∈ s.client.receiveDhcpMessage received, ¬ s.client.Denies msg
  | _ => True

theorem ConfigEffect.up {n n' : Network} {address : UInt32} {env : ConfigEnv} {es : List DhcpEvent}
    {success : Bool} (h : ConfigEffect n address env n' es success) (hup : n.up = true) : n'.up = true := by
  cases h with
  | rejects same _ _ => rw [same, hup]
  | raises up _ _ _ _ => exact up
  | configures up _ _ _ => exact up

/-- Without a denial a message leaves a raised interface up. -/
theorem HandleEffect.up {c c' : DhcpClient} {msg : Message} {env : ConfigEnv} {es : List DhcpEvent}
    {done : Bool} (h : HandleEffect c msg env c' es done) (hdenied : ¬ c.Denies msg) (hup : c.network.up = true) :
    c'.network.up = true := by
  cases h with
  | ignores same _ => rw [same, hup]
  | chooses _ _ result _ _ => rw [result]; exact hup
  | binds _ _ _ result _ => rw [result, setNextState_network]; exact (configureDhcp_effect c msg env).2.up hup
  | refuses _ _ _ result _ => rw [result]; exact (configureDhcp_effect c msg env).2.up hup
  | halts here nak _ _ _ => exact absurd ⟨here, nak⟩ hdenied

theorem dhcpStep_up {s t : DhcpSystem} {l : DhcpLabel} {es : List DhcpEvent} (hstep : dhcpStep s l = some (t, es))
    (hguard : NotDenied s l) (hup : s.client.network.up = true) : t.client.network.up = true := by
  cases dhcpStep_effect hstep with
  | waits _ _ same _ => rw [same, hup]
  | rests _ _ _ _ _ _ result _ => rw [result]; exact hup
  | sends _ _ _ _ message _ result _ => rw [result, (increaseTimeout_same _).2]; exact hup
  | advances _ _ _ _ _ _ result _ _ => rw [result]; exact hup
  | handles _ _ _ env label _ _ msg valid result _ _ =>
      subst label
      rw [result]
      exact (handleMessage_effect s.client msg env).up (hguard msg valid) hup

/-- In a run without denials every message leaves on a raised interface. -/
theorem sends_up (hguard : Guarded dhcpStep NotDenied (.start options network info requestAddress serverAddress) labels)
    (hrun : exec dhcpStep (.start options network info requestAddress serverAddress) labels = some (s, events)) :
    SendsUp events := by
  let initial : Network := { network with up := true, address := 0, subnetMask := 0 }
  refine sentThroughout_of_invariant (fun h s => Follows initial h s.client.network ∧ s.client.network.up = true)
    (fun before _ => linkAfter before = true) ?_ ?_ ⟨⟨rfl, rfl⟩, rfl⟩ hguard hrun
  · intro h s l t es hinv hg hstep
    exact ⟨hinv.1.trans (dhcpStep_follows hstep), dhcpStep_up hstep hg hinv.2⟩
  · intro h s _ _ _ message hinv _ _
    exact hinv.1.link.symm.trans hinv.2

theorem sends_up_acknowledged :
    ∃ s events, exec dhcpStep firstStart ackRun = some (s, events) ∧ s.client.mState = .bound ∧ SendsUp events := by
  obtain ⟨s, events, hrun, hbound⟩ : ∃ s events, exec dhcpStep firstStart ackRun = some (s, events) ∧
      s.client.mState = .bound := ⟨_, _, rfl, rfl⟩
  refine ⟨s, events, hrun, hbound, sends_up ?_ hrun⟩
  refine guarded_cons rfl trivial (guarded_cons rfl trivial (guarded_cons rfl ?_ (guarded_cons rfl trivial
    (guarded_cons rfl ?_ trivial))))
  · exact fun msg _ h => h.1
  · intro msg hmsg h
    cases (Option.some.inj hmsg : serverReply dhcpAck 2 5 = msg)
    exact absurd h.2 (by decide)

/-- The request is denied, and the client starts over. -/
def nakRun : List DhcpLabel :=
  [evaluateNow, evaluateNow, receiveReply dhcpOffer 1, evaluateNow, receiveReply dhcpNak 2, evaluateNow, evaluateNow]

theorem sent_down : (∀ l ∈ nakRun, l.CallsSucceed) ∧
    ∃ s events, exec dhcpStep firstStart nakRun = some (s, events) ∧ ¬ SendsUp events := by
  obtain ⟨s, before, message, hrun, hdown⟩ : ∃ s before message,
      exec dhcpStep firstStart nakRun = some (s, before ++ [.sent message]) ∧ linkAfter before = false :=
    ⟨_, [_, _, _, _, _, _, _, _], _, rfl, rfl⟩
  refine ⟨by simp [nakRun, evaluateNow, receiveReply, allSucceed, DhcpLabel.CallsSucceed],
    s, before ++ [.sent message], hrun, fun hup => ?_⟩
  have htrue := hup before (.sent message) [] rfl message rfl
  rw [hdown] at htrue
  cases htrue

end Trout.Dhcp
