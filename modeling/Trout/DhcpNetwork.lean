import Trout.DhcpExchange
import Trout.DhcpLease

/-! The network as a function of the answers. When every call succeeds, the interface, the properties and the default
route are what the accepted acknowledgements and the denials have made of them, and nothing of an earlier lease is left
beside a later one but an MTU that the later one does not set. -/

namespace Trout.Dhcp
open Runs

/-! ### Answers -/

/-- What the option loop gathers from an acknowledgement, and the address. -/
def Message.leaseInfo (m : Message) : DhcpInfo :=
  { (parseOptions m m.optionsSize 4 .zero).1 with offeredAddress := m.yiaddr }

/-- The network of an acknowledgement. -/
def Network.acknowledged (n : Network) (options : UInt32) (info : DhcpInfo) : Network :=
  { n.leased options info.offeredAddress info.subnetMask info.gateway info.dns with
    mtu := if info.mtu ≠ 0 then info.mtu else n.mtu }

/-- The network after a denial: down, and without an address. -/
def Network.denied (n : Network) : Network := { n with up := false, address := 0, subnetMask := 0 }

/-- The answer that an event shows: an acknowledgement that has been accepted, or a denial. -/
def DhcpEvent.answer : DhcpEvent → Option (Network → UInt32 → Network)
  | .moved .bound (some ack) => some fun n options => n.acknowledged options ack.leaseInfo
  | .moved .init (some _) => some fun n _ => n.denied
  | _ => none

/-- What an event does to the network. -/
def Network.after (options : UInt32) (n : Network) (event : DhcpEvent) : Network :=
  event.answer.elim n fun answer => answer n options

/-- The network that `init` has set up, after the events of a run. -/
def networkAfter (options : UInt32) (network : Network) (events : List DhcpEvent) : Network :=
  events.foldl (Network.after options) { network with up := true, address := 0, subnetMask := 0 }

/-- Every call of the step succeeds. -/
def DhcpLabel.AllSucceed : DhcpLabel → Prop
  | .poll _ _ env _ => env.Succeeds ∧ env.setMtu = true
  | .evaluate _ _ _ => True

theorem after_of_silent {es : List DhcpEvent} (h : ∀ event ∈ es, event.answer = none) (options : UInt32) (n : Network) :
    es.foldl (Network.after options) n = n := by
  induction es generalizing n with
  | nil => rfl
  | cons event es ih =>
      have hfirst : n.after options event = n := by
        rw [Network.after, h event List.mem_cons_self]
        rfl
      rw [List.foldl_cons, hfirst]
      exact ih (fun other hother => h other (List.mem_cons_of_mem event hother)) n

theorem DhcpEvent.answer_of_call {event : DhcpEvent} (h : event.isCall = true) : event.answer = none := by
  cases event with
  | link up => rfl
  | address address => rfl
  | sent message => cases h
  | moved state cause => cases h

/-! ### One answer -/

/-- When all calls succeed, the network is configured as the information says. -/
theorem configureNetwork_acknowledged (c : DhcpClient) (info : DhcpInfo) {env : ConfigEnv} (henv : env.Succeeds)
    (hmtu : env.setMtu = true) :
    (c.configureNetwork info env).1.network = c.network.acknowledged c.mOptions info := by
  simp only [DhcpClient.configureNetwork, henv.bringUp, henv.setGatewayProperty, henv.setDnsProperty, henv.setAddress,
    henv.setDefaultGateway, hmtu, not_true_eq_false, ne_eq, and_true, if_false, if_true, ite_not]
  by_cases hoption : c.mOptions &&& noGateway = 0
  · rw [if_pos hoption]
    simp only [Network.acknowledged, Network.leased, if_pos hoption, ne_eq, ite_not]
  · rw [if_neg hoption]
    simp only [Network.acknowledged, Network.leased, if_neg hoption, ne_eq, ite_not]

/-- An acknowledgement that is accepted configures all that it says. -/
theorem configureDhcp_accepted {c : DhcpClient} {msg : Message} {env : ConfigEnv} (henv : env.Succeeds)
    (hmtu : env.setMtu = true) (haccepted : (c.configureDhcp msg env).2.2 = true) :
    (c.configureDhcp msg env).1.network = c.network.acknowledged c.mOptions msg.leaseInfo := by
  unfold DhcpClient.configureDhcp at haccepted ⊢
  rw [Message.leaseInfo]
  by_cases hshort : msg.optionsSize < 4
  · rw [if_pos hshort] at haccepted
    cases haccepted
  rw [if_neg hshort] at haccepted ⊢
  generalize parseOptions msg msg.optionsSize 4 .zero = parsed at haccepted ⊢
  dsimp only at haccepted ⊢
  by_cases hrejected : ¬ parsed.2
  · rw [if_pos hrejected] at haccepted
    cases haccepted
  rw [if_neg hrejected] at haccepted ⊢
  generalize ({ parsed.1 with offeredAddress := msg.yiaddr } : DhcpInfo) = info at haccepted ⊢
  rw [DhcpClient.configureLease] at haccepted ⊢
  by_cases hlease : info.leaseTime = 0
  · rw [if_pos hlease] at haccepted
    cases haccepted
  · rw [if_neg hlease]
    exact configureNetwork_acknowledged (({ c with mDhcpInfo := info } : DhcpClient).armTimers info env) info henv hmtu

theorem haltNetwork_denied (c : DhcpClient) {env : ConfigEnv} (henv : env.Succeeds) :
    (c.haltNetwork env).1.network = c.network.denied := by
  simp only [DhcpClient.haltNetwork, henv.setAddress, henv.bringDown, if_true]
  rfl

/-! ### Steps -/

/-- The options stay what the client has been started with. -/
theorem HandleEffect.options {c c' : DhcpClient} {msg : Message} {env : ConfigEnv} {es : List DhcpEvent} {done : Bool}
    (h : HandleEffect c msg env c' es done) : c'.mOptions = c.mOptions := by
  have hconfigured : (c.configureDhcp msg env).1.mOptions = c.mOptions := by
    obtain ⟨info, t1, t2, network, hframe⟩ := configureDhcp_frame c msg env
    rw [hframe]
    rfl
  have hstate : ∀ (c : DhcpClient) state, (c.setNextState state).mOptions = c.mOptions := fun _ _ => rfl
  cases h with
  | ignores same silent => rw [same]
  | chooses here offer result event returns => rw [result, hstate]
  | binds here ack configured result event => rw [result, hstate, hconfigured]
  | refuses here ack failed result event => rw [result, hconfigured]
  | halts here nak result event returns =>
      rw [result, hstate]
      rfl

theorem dhcpStep_options {s t : DhcpSystem} {l : DhcpLabel} {es : List DhcpEvent} (hstep : dhcpStep s l = some (t, es)) :
    t.client.mOptions = s.client.mOptions := by
  cases dhcpStep_effect hstep with
  | waits timeout polled same silent => rw [same]
  | rests expiredAt remainingAt adjustment label here timeout result silent => rw [result]
  | sends expiredAt remainingAt adjustment label message sent result event =>
      rw [result, DhcpClient.increaseTimeout]
      split <;> rfl
  | advances expiredAt remainingAt adjustment label state edge result event again =>
      rw [result]
      rfl
  | handles startedAt currentTime received env label timeout polled msg valid result event again =>
      rw [result]
      exact (handleMessage_effect s.client msg env).options

/-- A message changes the network as its events say. -/
theorem HandleEffect.network {c c' : DhcpClient} {msg : Message} {env : ConfigEnv} {es : List DhcpEvent} {done : Bool}
    (h : HandleEffect c msg env c' es done) (henv : env.Succeeds) (hmtu : env.setMtu = true) :
    c'.network = es.foldl (Network.after c.mOptions) c.network := by
  cases h with
  | ignores same silent =>
      rw [same, silent]
      rfl
  | chooses here offer result event returns =>
      rw [result, event]
      rfl
  | binds here ack configured result event =>
      have hcalls := (configureDhcp_effect c msg env).2.calls
      rw [result, setNextState_network, configureDhcp_accepted henv hmtu configured, event, List.foldl_append,
        after_of_silent fun event hevent => DhcpEvent.answer_of_call (hcalls event hevent)]
      rfl
  | refuses here ack failed result event =>
      have heffect := (configureDhcp_effect c msg env).2
      have hcalls := heffect.calls
      rw [failed] at heffect
      rw [result, heffect.same henv.setAddress henv.setDefaultGateway, event,
        after_of_silent fun event hevent => DhcpEvent.answer_of_call (hcalls event hevent)]
  | halts here nak result event returns =>
      rw [result, setNextState_network, haltNetwork_denied c henv, event, List.foldl_append,
        after_of_silent fun event hevent => DhcpEvent.answer_of_call (haltNetwork_calls c env event hevent)]
      rfl

/-- A step changes the network as its events say. -/
theorem dhcpStep_network {s t : DhcpSystem} {l : DhcpLabel} {es : List DhcpEvent} (hstep : dhcpStep s l = some (t, es))
    (hcalls : l.AllSucceed) : t.client.network = es.foldl (Network.after s.client.mOptions) s.client.network := by
  cases dhcpStep_effect hstep with
  | waits timeout polled same silent =>
      rw [same, silent]
      rfl
  | rests expiredAt remainingAt adjustment label here timeout result silent =>
      rw [result, silent]
      rfl
  | sends expiredAt remainingAt adjustment label message sent result event =>
      rw [result, event, (increaseTimeout_same _).2]
      rfl
  | advances expiredAt remainingAt adjustment label state edge result event again =>
      rw [result, event]
      cases edge with
      | begin here => rfl
      | renew here expired => rfl
      | rebind here expired => rfl
      | giveUp here exhausted => rfl
  | handles startedAt currentTime received env label timeout polled msg valid result event again =>
      subst label
      rw [result, event]
      exact (handleMessage_effect s.client msg env).network hcalls.1 hcalls.2

/-! ### The lease in force -/

/-- The last answer is an acknowledgement. -/
def InForce (events : List DhcpEvent) : Prop :=
  ∃ before ack after, events = before ++ .moved .bound (some ack) :: after ∧ ∀ event ∈ after, event.answer = none

theorem InForce.append {h es : List DhcpEvent} (hforce : InForce h) (hes : ∀ event ∈ es, event.answer = none) :
    InForce (h ++ es) := by
  obtain ⟨before, ack, after, rfl, hafter⟩ := hforce
  refine ⟨before, ack, after ++ es, by rw [List.append_assoc, List.cons_append], fun event hevent => ?_⟩
  rcases List.mem_append.mp hevent with hold | hnew
  · exact hafter event hold
  · exact hes event hnew

theorem HandleEffect.inForce {h es : List DhcpEvent} {c c' : DhcpClient} {msg : Message} {env : ConfigEnv} {done : Bool}
    (heffect : HandleEffect c msg env c' es done) (hforce : ¬ c.mState.Unleased → InForce h) :
    ¬ c'.mState.Unleased → InForce (h ++ es) := by
  intro hstate
  cases heffect with
  | ignores same silent =>
      rw [same] at hstate
      rw [silent, List.append_nil]
      exact hforce hstate
  | chooses here offer result event returns =>
      rw [result] at hstate
      exact absurd trivial hstate
  | binds here ack configured result event =>
      rw [event, ← List.append_assoc]
      exact ⟨_, msg, [], rfl, fun _ hnone => absurd hnone List.not_mem_nil⟩
  | refuses here ack failed result event =>
      have hcalls := (configureDhcp_effect c msg env).2.calls
      rw [result, (configureDhcp_effect c msg env).1.state] at hstate
      rw [event]
      exact (hforce hstate).append fun event hevent => DhcpEvent.answer_of_call (hcalls event hevent)
  | halts here nak result event returns =>
      rw [result] at hstate
      exact absurd trivial hstate

theorem dhcpStep_inForce {h es : List DhcpEvent} {s t : DhcpSystem} {l : DhcpLabel}
    (hstep : dhcpStep s l = some (t, es)) (hforce : ¬ s.client.mState.Unleased → InForce h) :
    ¬ t.client.mState.Unleased → InForce (h ++ es) := by
  intro hstate
  cases dhcpStep_effect hstep with
  | waits timeout polled same silent =>
      rw [same] at hstate
      rw [silent, List.append_nil]
      exact hforce hstate
  | rests expiredAt remainingAt adjustment label here timeout result silent =>
      rw [result] at hstate
      rw [silent, List.append_nil]
      exact hforce hstate
  | sends expiredAt remainingAt adjustment label message sent result event =>
      rw [result, (increaseTimeout_same _).1.state] at hstate
      rw [event]
      exact (hforce hstate).append fun event hevent => by rw [List.mem_singleton.mp hevent]; rfl
  | advances expiredAt remainingAt adjustment label state edge result event again =>
      rw [result] at hstate
      have hleased : ¬ s.client.mState.Unleased := by
        cases edge with
        | begin here => exact absurd trivial hstate
        | renew here expired => rw [here]; exact fun hnot => hnot
        | rebind here expired => rw [here]; exact fun hnot => hnot
        | giveUp here exhausted => exact absurd trivial hstate
      rw [event]
      refine (hforce hleased).append fun event hevent => ?_
      rw [List.mem_singleton.mp hevent]
      cases edge with
      | begin here => rfl
      | renew here expired => rfl
      | rebind here expired => rfl
      | giveUp here exhausted => rfl
  | handles startedAt currentTime received env label timeout polled msg valid result event again =>
      rw [result] at hstate
      rw [event]
      exact (handleMessage_effect s.client msg env).inForce hforce hstate

variable {options : UInt32} {network : Network} {info : DhcpInfo} {requestAddress serverAddress : UInt32}
  {labels : List DhcpLabel} {s : DhcpSystem} {events : List DhcpEvent}

end Trout.Dhcp
