import Trout.DhcpLink

/-! The address of a lease. A client without a lease has no address as long as every lease ends with a
denial: Rebinding gives up without a call of `haltNetwork`. -/

namespace Trout.Dhcp
open CInt Runs

/-- The states of a client without a lease. -/
def State.Unleased : State → Prop
  | .init => True
  | .selecting => True
  | .requesting => True
  | _ => False

/-- A client without a lease has removed the address. -/
def AddressRemoved (s : DhcpSystem) : Prop := s.client.mState.Unleased → s.client.network.address = 0

/-- Rebinding does not give up while the interface has an address. -/
def NotExpired (s : DhcpSystem) : DhcpLabel → Prop
  | .evaluate _ _ _ =>
      s.client.mState = .rebinding → maxTimeout ≤ s.client.mNextTimeout → s.client.network.address = 0
  | .poll _ _ _ _ => True

theorem Advance.addressRemoved {c : DhcpClient} {expiredAt : Nat} {state : State} (h : Advance c expiredAt state)
    (hremoved : c.mState.Unleased → c.network.address = 0)
    (hexpired : c.mState = .rebinding → maxTimeout ≤ c.mNextTimeout → c.network.address = 0)
    (hstate : state.Unleased) : c.network.address = 0 := by
  cases h with
  | begin here => exact hremoved (by rw [here]; trivial)
  | renew _ _ => exact hstate.elim
  | rebind _ _ => exact hstate.elim
  | giveUp here exhausted =>
      rcases here with here | here
      · exact hremoved (by rw [here]; trivial)
      · exact hexpired here exhausted

/-- When every call succeeds, an acknowledgement that does not bind the client leaves the network alone. -/
theorem ConfigEffect.same {n n' : Network} {address : UInt32} {env : ConfigEnv} {es : List DhcpEvent}
    (h : ConfigEffect n address env n' es false) (hset : env.setAddress = true) (hroute : env.setDefaultGateway = true) :
    n' = n := by
  cases h with
  | rejects same _ _ => exact same
  | raises _ _ _ failed _ => rw [hset] at failed; cases failed
  | configures _ _ _ routed => cases routed hroute

theorem HandleEffect.addressRemoved {c c' : DhcpClient} {msg : Message} {env : ConfigEnv} {es : List DhcpEvent}
    {done : Bool} (h : HandleEffect c msg env c' es done) (hset : env.setAddress = true) (hroute : env.setDefaultGateway = true)
    (hremoved : c.mState.Unleased → c.network.address = 0) : c'.mState.Unleased → c'.network.address = 0 := by
  intro hstate
  cases h with
  | ignores same _ => rw [same] at hstate ⊢; exact hremoved hstate
  | chooses here _ result _ _ => rw [result]; exact hremoved (by rw [here]; trivial)
  | binds _ _ _ result _ => rw [result] at hstate; exact hstate.elim
  | refuses _ _ failed result _ =>
      have heffect := configureDhcp_effect c msg env
      rw [failed] at heffect
      rw [result, heffect.1.state] at hstate
      rw [result, heffect.2.same hset hroute]
      exact hremoved hstate
  | halts _ _ result _ _ =>
      rw [result, setNextState_network, (haltNetwork_follows c env).address]
      unfold DhcpClient.haltNetwork
      cases hdown : env.bringDown <;> simp [hset] <;> rfl

theorem dhcpStep_addressRemoved {s t : DhcpSystem} {l : DhcpLabel} {es : List DhcpEvent}
    (hstep : dhcpStep s l = some (t, es)) (hexpired : NotExpired s l) (hcalls : l.CallsSucceed)
    (hremoved : AddressRemoved s) : AddressRemoved t := by
  intro hstate
  cases dhcpStep_effect hstep with
  | waits _ _ same _ => rw [same] at hstate ⊢; exact hremoved hstate
  | rests _ _ _ _ here _ result _ => rw [result, here] at hstate; exact hstate.elim
  | sends _ _ _ _ message _ result _ =>
      obtain ⟨hsame, hnetwork⟩ := increaseTimeout_same (s.client.sendNew message).1
      rw [result, hsame.state] at hstate
      rw [result, hnetwork]
      exact hremoved hstate
  | advances _ _ _ label state edge result _ _ =>
      subst label
      rw [result] at hstate ⊢
      exact edge.addressRemoved hremoved hexpired hstate
  | handles _ _ _ env label _ _ msg _ result _ _ =>
      subst label
      rw [result] at hstate ⊢
      exact (handleMessage_effect s.client msg env).addressRemoved hcalls.2.2.1 hcalls.2.2.2.1 hremoved hstate

variable {options : UInt32} {network : Network} {info : DhcpInfo} {requestAddress serverAddress : UInt32}
  {labels : List DhcpLabel} {s : DhcpSystem} {events : List DhcpEvent}

/-- In a run in which no lease ends unanswered, a client without a lease has no address; and the interface has the address
that was set last. -/
theorem address_removed (hcalls : ∀ l ∈ labels, l.CallsSucceed)
    (hguard : Guarded dhcpStep NotExpired (.start options network info requestAddress serverAddress) labels)
    (hrun : exec dhcpStep (.start options network info requestAddress serverAddress) labels = some (s, events)) :
    AddressRemoved s ∧ s.client.network.address = addressAfter events := by
  refine ⟨exec_invariant AddressRemoved (fun s l t es hremoved hg hstep => ?_) (fun _ => rfl)
    (hguard.and_labels hcalls) hrun, (network_follows hrun).2⟩
  exact dhcpStep_addressRemoved hstep hg.1 hg.2 hremoved

/-- Where Rebinding gives up with an address, the address stays. -/
theorem giveUp_keeps_address {s t : DhcpSystem} {l : DhcpLabel} {es : List DhcpEvent}
    (hstep : dhcpStep s l = some (t, es)) (hexpired : ¬ NotExpired s l) : ¬ AddressRemoved t := by
  cases l with
  | poll _ _ _ _ => exact absurd trivial hexpired
  | evaluate expiredAt remainingAt adjustment =>
      simp only [NotExpired, not_forall] at hexpired
      obtain ⟨here, hexhausted, haddress⟩ := hexpired
      rw [dhcpStep] at hstep
      split at hstep
      · cases hstep
        intro hremoved
        have hevaluate : s.client.evaluate expiredAt remainingAt = s.client.moveTo .init := by
          rw [DhcpClient.evaluate, here]
          exact if_pos hexhausted
        simp only [AddressRemoved, hevaluate, DhcpClient.moveTo, DhcpClient.setNextState] at hremoved
        exact haddress (hremoved trivial)
      · cases hstep

/-- The lease is over at once; its renewal is denied, and the client starts over. -/
def deniedRun : List DhcpLabel := ackRun ++ [evaluateNow, evaluateNow, evaluateNow, receiveReply dhcpNak 3]

theorem address_removed_denied : ∃ s events, exec dhcpStep firstStart deniedRun = some (s, events) ∧
    s.client.mState = .init ∧ AddressRemoved s := by
  obtain ⟨s, events, hrun, hinit⟩ : ∃ s events, exec dhcpStep firstStart deniedRun = some (s, events) ∧
      s.client.mState = .init := ⟨_, _, rfl, rfl⟩
  refine ⟨s, events, hrun, hinit, (address_removed ?_ ?_ hrun).1⟩
  · simp [deniedRun, ackRun, evaluateNow, receiveReply, allSucceed, DhcpLabel.CallsSucceed]
  · refine guarded_cons rfl (fun hhere => by cases hhere) ?_
    refine guarded_cons rfl (fun hhere => by cases hhere) ?_
    refine guarded_cons rfl trivial ?_
    refine guarded_cons rfl (fun hhere => by cases hhere) ?_
    refine guarded_cons rfl trivial ?_
    refine guarded_cons rfl (fun hhere => by cases hhere) ?_
    refine guarded_cons rfl (fun hhere => by cases hhere) ?_
    refine guarded_cons rfl ?_ (guarded_cons rfl trivial trivial)
    exact fun _ hexhausted => absurd hexhausted (by decide)

/-- The lease is over at once, and no request is answered. -/
def unansweredRun : List DhcpLabel :=
  ackRun ++ [evaluateNow, evaluateNow] ++
    (List.replicate 5 [evaluateNow, .poll 0 .timeout allSucceed 0]).flatten ++ [evaluateNow]

theorem address_outlives_lease : (∀ l ∈ unansweredRun, l.CallsSucceed) ∧
    ∃ s events, exec dhcpStep firstStart unansweredRun = some (s, events) ∧ ¬ AddressRemoved s := by
  obtain ⟨s, events, hrun, hinit, haddress⟩ : ∃ s events, exec dhcpStep firstStart unansweredRun = some (s, events) ∧
      s.client.mState = .init ∧ s.client.network.address = 5 := ⟨_, _, rfl, rfl, rfl⟩
  refine ⟨?_, s, events, hrun, fun hremoved => ?_⟩
  · simp [unansweredRun, ackRun, evaluateNow, receiveReply, allSucceed, DhcpLabel.CallsSucceed]
  · have hzero := hremoved (by rw [hinit]; trivial)
    rw [haddress] at hzero
    cases hzero

end Trout.Dhcp
