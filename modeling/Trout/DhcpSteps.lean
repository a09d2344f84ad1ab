import Trout.DhcpClient

/-! What one step of the DHCP client can do: it waits, sends a message, moves on by itself, or follows a
valid message. Only an answer to a request touches the network. -/

namespace Trout.Dhcp
open CInt Runs

/-- The transitions that `run` makes without a message. -/
inductive Advance (c : DhcpClient) (expiredAt : Nat) : State → Prop where
  | begin (here : c.mState = .init) : Advance c expiredAt .selecting
  | renew (here : c.mState = .bound) (expired : c.mT1.expired expiredAt = true) : Advance c expiredAt .renewing
  | rebind (here : c.mState = .renewing) (expired : c.mT2.expired expiredAt = true) : Advance c expiredAt .rebinding
  | giveUp (here : c.mState = .requesting ∨ c.mState = .rebinding) (exhausted : maxTimeout ≤ c.mNextTimeout) :
      Advance c expiredAt .init

/-- The message that `run` sends in each state. -/
inductive Sends (c : DhcpClient) : Message → Prop where
  | discover (here : c.mState = .selecting) : Sends c (.discover c.network.macAddress c.sNextTransactionId)
  | request (here : c.mState = .requesting ∨ c.mState = .renewing) :
      Sends c (.request c.network.macAddress c.sNextTransactionId c.mRequestAddress c.mServerAddress)
  | rebind (here : c.mState = .rebinding) (left : c.mNextTimeout < maxTimeout) :
      Sends c (.request c.network.macAddress c.sNextTransactionId c.mRequestAddress inaddrBroadcast)

theorem Sends.state {c : DhcpClient} {message : Message} (h : Sends c message) :
    c.mState ≠ .init ∧ c.mState ≠ .bound := by
  cases h with
  | discover here => rw [here]; exact ⟨nofun, nofun⟩
  | request here => rcases here with here | here <;> rw [here] <;> exact ⟨nofun, nofun⟩
  | rebind here _ => rw [here]; exact ⟨nofun, nofun⟩

inductive DhcpEffect (s : DhcpSystem) (l : DhcpLabel) (t : DhcpSystem) (es : List DhcpEvent) : Prop where
  /-- The client stays as it is, whatever has been received. -/
  | waits (timeout : Nat) (polled : s.pc = .polling timeout) (same : t.client = s.client) (silent : es = [])
  /-- The wait of a bound client for the end of T1. -/
  | rests (expiredAt remainingAt : Nat) (adjustment : Int) (label : l = .evaluate expiredAt remainingAt adjustment)
      (here : s.client.mState = .bound) (timeout : Nat)
      (result : t.client = { s.client with mNextTimeout := timeout, mFuzzNextTimeout := false }) (silent : es = [])
  | sends (expiredAt remainingAt : Nat) (adjustment : Int) (label : l = .evaluate expiredAt remainingAt adjustment)
      (message : Message) (sent : Sends s.client message)
      (result : t.client = (s.client.sendNew message).1.increaseTimeout) (event : es = [.sent message])
  | advances (expiredAt remainingAt : Nat) (adjustment : Int) (label : l = .evaluate expiredAt remainingAt adjustment)
      (state : State) (edge : Advance s.client expiredAt state) (result : t.client = s.client.setNextState state)
      (event : es = [.moved state none]) (again : t.pc = .top)
  /-- A valid message has been handled. -/
  | handles (startedAt currentTime : Nat) (received : Option Message) (env : ConfigEnv)
      (label : l = .poll startedAt (.readable received) env currentTime) (timeout : Nat) (polled : s.pc = .polling timeout)
      (msg : Message) (valid : s.client.receiveDhcpMessage received = some msg)
      (result : t.client = (s.client.handleMessage msg env).1) (event : es = (s.client.handleMessage msg env).2.1)
      (again : (s.client.handleMessage msg env).2.2 = true → t.pc = .top)

/-- What the evaluation of a state does. -/
inductive EvaluateEffect (c : DhcpClient) (expiredAt : Nat) : DhcpClient × List DhcpEvent → Prop where
  | advances (state : State) (edge : Advance c expiredAt state) : EvaluateEffect c expiredAt (c.moveTo state)
  | rests (here : c.mState = .bound) (timeout : Nat) :
      EvaluateEffect c expiredAt ({ c with mNextTimeout := timeout, mFuzzNextTimeout := false }, [])
  | sends (message : Message) (sent : Sends c message) : EvaluateEffect c expiredAt (DhcpClient.awaitReply (c.sendNew message))

theorem evaluate_effect (c : DhcpClient) (expiredAt remainingAt : Nat) :
    EvaluateEffect c expiredAt (c.evaluate expiredAt remainingAt) := by
  unfold DhcpClient.evaluate
  split <;> rename_i here
  · exact .advances .selecting (.begin here)
  · exact .sends _ (.discover here)
  · by_cases hexhausted : c.mNextTimeout ≥ maxTimeout
    · rw [if_pos hexhausted]
      exact .advances .init (.giveUp (Or.inl here) hexhausted)
    · rw [if_neg hexhausted]
      exact .sends _ (.request (Or.inl here))
  · by_cases hexpired : c.mT1.expired expiredAt
    · rw [if_pos hexpired]
      exact .advances .renewing (.renew here hexpired)
    · rw [if_neg hexpired]
      exact .rests here _
  · by_cases hexpired : c.mT2.expired expiredAt
    · rw [if_pos hexpired]
      exact .advances .rebinding (.rebind here hexpired)
    · rw [if_neg hexpired]
      exact .sends _ (.request (Or.inr here))
  · by_cases hexhausted : c.mNextTimeout ≥ maxTimeout
    · rw [if_pos hexhausted]
      exact .advances .init (.giveUp (Or.inr here) hexhausted)
    · rw [if_neg hexhausted]
      exact .sends _ (.rebind here (Nat.lt_of_not_le hexhausted))

theorem dhcpStep_effect {s t : DhcpSystem} {l : DhcpLabel} {es : List DhcpEvent}
    (hstep : dhcpStep s l = some (t, es)) : DhcpEffect s l t es := by
  cases l with
  | evaluate expiredAt remainingAt adjustment =>
      rw [dhcpStep] at hstep
      split at hstep
      · have heffect := evaluate_effect s.client expiredAt remainingAt
        dsimp only at hstep
        generalize s.client.evaluate expiredAt remainingAt = r at heffect hstep
        cases heffect with
        | advances state edge =>
            cases hstep
            exact .advances _ _ _ rfl state edge rfl rfl rfl
        | rests here timeout =>
            cases hstep
            exact .rests _ _ _ rfl here timeout rfl rfl
        | sends message sent =>
            cases hstep
            exact .sends _ _ _ rfl message sent rfl rfl
      · cases hstep
  | poll startedAt result env currentTime =>
      unfold dhcpStep at hstep
      dsimp only at hstep
      split at hstep
      · cases hstep
      · rename_i timeout hpc
        split at hstep
        · cases hstep
          exact .waits timeout hpc rfl rfl
        · cases hstep
          exact .waits timeout hpc rfl rfl
        · rename_i received
          split at hstep
          · cases hstep
            exact .waits timeout hpc rfl rfl
          · rename_i msg hvalid
            cases hstep
            exact .handles _ _ received env rfl timeout hpc msg hvalid rfl rfl (fun hdone => if_pos hdone)

/-! ### Answers to a request -/

/-- The states in which the client waits for the answer to a request. -/
def State.AwaitsAck : State → Prop
  | .requesting => True
  | .renewing => True
  | .rebinding => True
  | _ => False

/-- What a valid message does, and whether the wait is over. -/
inductive HandleEffect (c : DhcpClient) (msg : Message) (env : ConfigEnv) (c' : DhcpClient) (es : List DhcpEvent)
    (done : Bool) : Prop where
  | ignores (same : c' = c) (silent : es = [])
  | chooses (here : c.mState = .selecting) (offer : msg.type = dhcpOffer)
      (result : c' = ({ c with mServerAddress := msg.serverId, mRequestAddress := msg.yiaddr } :
        DhcpClient).setNextState .requesting)
      (event : es = [.moved .requesting (some msg)]) (returns : done = true)
  | binds (here : c.mState.AwaitsAck) (ack : msg.type = dhcpAck) (configured : (c.configureDhcp msg env).2.2 = true)
      (result : c' = (c.configureDhcp msg env).1.setNextState .bound)
      (event : es = (c.configureDhcp msg env).2.1 ++ [.moved .bound (some msg)])
  | refuses (here : c.mState.AwaitsAck) (ack : msg.type = dhcpAck) (failed : (c.configureDhcp msg env).2.2 = false)
      (result : c' = (c.configureDhcp msg env).1) (event : es = (c.configureDhcp msg env).2.1)
  | halts (here : c.mState.AwaitsAck) (nak : msg.type = dhcpNak)
      (result : c' = (c.haltNetwork env).1.setNextState .init)
      (event : es = (c.haltNetwork env).2 ++ [.moved .init (some msg)]) (returns : done = true)

theorem handleAnswer_effect {c : DhcpClient} (hawaits : c.mState.AwaitsAck) (msg : Message) (env : ConfigEnv) :
    HandleEffect c msg env (c.handleAnswer msg env).1 (c.handleAnswer msg env).2.1 (c.handleAnswer msg env).2.2 := by
  simp only [DhcpClient.handleAnswer]
  by_cases hack : msg.type = dhcpAck
  · rw [if_pos hack]
    by_cases hconfigured : (c.configureDhcp msg env).2.2
    · rw [if_pos hconfigured]
      exact .binds hawaits hack hconfigured rfl rfl
    · rw [if_neg hconfigured]
      dsimp only
      exact .refuses hawaits hack (Bool.eq_false_of_not_eq_true hconfigured) rfl rfl
  · rw [if_neg hack]
    by_cases hnak : msg.type = dhcpNak
    · rw [if_pos hnak]
      exact .halts hawaits hnak rfl rfl rfl
    · rw [if_neg hnak]
      exact .ignores rfl rfl

theorem handleMessage_effect (c : DhcpClient) (msg : Message) (env : ConfigEnv) :
    HandleEffect c msg env (c.handleMessage msg env).1 (c.handleMessage msg env).2.1 (c.handleMessage msg env).2.2 := by
  unfold DhcpClient.handleMessage
  cases hstate : c.mState with
  | init => exact .ignores rfl rfl
  | selecting =>
      by_cases hoffer : msg.type = dhcpOffer
      · simp only [if_pos hoffer]
        exact .chooses hstate hoffer rfl rfl rfl
      · simp only [if_neg hoffer]
        exact .ignores rfl rfl
  | requesting =>
      dsimp only
      exact handleAnswer_effect (by rw [hstate]; trivial) msg env
  | bound => exact .ignores rfl rfl
  | renewing =>
      dsimp only
      exact handleAnswer_effect (by rw [hstate]; trivial) msg env
  | rebinding =>
      dsimp only
      exact handleAnswer_effect (by rw [hstate]; trivial) msg env

/-! ### The network -/

/-- The members that say where the client stands with its server. -/
structure SameSession (c c' : DhcpClient) : Prop where
  state : c'.mState = c.mState
  lastMsg : c'.mLastMsg = c.mLastMsg
  requestAddress : c'.mRequestAddress = c.mRequestAddress
  serverAddress : c'.mServerAddress = c.mServerAddress

theorem increaseTimeout_same (c : DhcpClient) :
    SameSession c c.increaseTimeout ∧ c.increaseTimeout.network = c.network := by
  rw [DhcpClient.increaseTimeout]
  split
  · exact ⟨⟨rfl, rfl, rfl, rfl⟩, rfl⟩
  · exact ⟨⟨rfl, rfl, rfl, rfl⟩, rfl⟩

theorem setNextState_network (c : DhcpClient) (state : State) : (c.setNextState state).network = c.network := rfl

theorem setNextState_addresses (c : DhcpClient) (state : State) :
    (c.setNextState state).mRequestAddress = c.mRequestAddress ∧
      (c.setNextState state).mServerAddress = c.mServerAddress := ⟨rfl, rfl⟩

/-- The client as configured: what `configureDhcp` sets, and all else as before. -/
def DhcpClient.configured (c : DhcpClient) (info : DhcpInfo) (t1 t2 : Timer) (network : Network) : DhcpClient :=
  { c with mDhcpInfo := info, mT1 := t1, mT2 := t2, network := network }

theorem configureNetwork_frame (c : DhcpClient) (info : DhcpInfo) (env : ConfigEnv) :
    ∃ network, (c.configureNetwork info env).1 = c.configured c.mDhcpInfo c.mT1 c.mT2 network := by
  unfold DhcpClient.configureNetwork
  split
  · exact ⟨c.network, rfl⟩
  dsimp only
  split
  · exact ⟨_, rfl⟩
  split
  · split <;> exact ⟨_, rfl⟩
  · exact ⟨_, rfl⟩

theorem configureLease_frame (c : DhcpClient) (info : DhcpInfo) (env : ConfigEnv) :
    ∃ t1 t2 network, (c.configureLease info env).1 = c.configured info t1 t2 network := by
  unfold DhcpClient.configureLease
  dsimp only
  split
  · exact ⟨c.mT1, c.mT2, c.network, rfl⟩
  · obtain ⟨network, hframe⟩ := configureNetwork_frame (({ c with mDhcpInfo := info } : DhcpClient).armTimers info env)
      info env
    exact ⟨_, _, network, hframe⟩

theorem configureDhcp_frame (c : DhcpClient) (msg : Message) (env : ConfigEnv) :
    ∃ info t1 t2 network, (c.configureDhcp msg env).1 = c.configured info t1 t2 network := by
  unfold DhcpClient.configureDhcp
  split
  · exact ⟨c.mDhcpInfo, c.mT1, c.mT2, c.network, rfl⟩
  dsimp only
  split
  · exact ⟨_, c.mT1, c.mT2, c.network, rfl⟩
  · exact ⟨_, configureLease_frame c _ env⟩

/-- How far `configureDhcp` gets with the network when it configures an address. -/
inductive ConfigEffect (n : Network) (address : UInt32) (env : ConfigEnv) (n' : Network) (es : List DhcpEvent)
    (success : Bool) : Prop where
  | rejects (same : n' = n) (silent : es = []) (fails : success = false)
  | raises (up : n'.up = true) (unaddressed : n'.address = n.address) (event : es = [.link true])
      (failed : env.setAddress = false) (fails : success = false)
  | configures (up : n'.up = true) (configured : n'.address = address) (event : es = [.link true, .address address])
      (routed : env.setDefaultGateway = true → success = true)

theorem configureNetwork_effect (c : DhcpClient) (info : DhcpInfo) (env : ConfigEnv) :
    ConfigEffect c.network info.offeredAddress env (c.configureNetwork info env).1.network
      (c.configureNetwork info env).2.1 (c.configureNetwork info env).2.2 := by
  unfold DhcpClient.configureNetwork
  split
  · exact .rejects rfl rfl rfl
  dsimp only
  split
  · rename_i hfailed
    exact .raises rfl rfl rfl (by simpa using hfailed) rfl
  split
  · split
    · rename_i hfailed
      exact .configures rfl rfl rfl (fun hrouted => absurd hrouted hfailed)
    · exact .configures rfl rfl rfl (fun _ => rfl)
  · exact .configures rfl rfl rfl (fun _ => rfl)

theorem configureLease_effect (c : DhcpClient) (info : DhcpInfo) (env : ConfigEnv) :
    ConfigEffect c.network info.offeredAddress env (c.configureLease info env).1.network
      (c.configureLease info env).2.1 (c.configureLease info env).2.2 := by
  unfold DhcpClient.configureLease
  by_cases hlease : info.leaseTime = 0
  · rw [if_pos hlease]
    exact .rejects rfl rfl rfl
  · rw [if_neg hlease]
    exact configureNetwork_effect (({ c with mDhcpInfo := info } : DhcpClient).armTimers info env) info env

/-- Whatever the message holds, `configureDhcp` leaves the session alone and the network in one of three ways. -/
theorem configureDhcp_effect (c : DhcpClient) (msg : Message) (env : ConfigEnv) :
    SameSession c (c.configureDhcp msg env).1 ∧
      ConfigEffect c.network msg.yiaddr env (c.configureDhcp msg env).1.network (c.configureDhcp msg env).2.1
        (c.configureDhcp msg env).2.2 := by
  obtain ⟨info, t1, t2, network, hframe⟩ := configureDhcp_frame c msg env
  refine ⟨?_, ?_⟩
  · rw [hframe]
    exact ⟨rfl, rfl, rfl, rfl⟩
  · unfold DhcpClient.configureDhcp
    split
    · exact .rejects rfl rfl rfl
    generalize parseOptions msg msg.optionsSize 4 .zero = parsed
    dsimp only
    split
    · exact .rejects rfl rfl rfl
    · exact configureLease_effect c { parsed.1 with offeredAddress := msg.yiaddr } env

/-- Every ioctl and netlink call of the step succeeds. -/
def DhcpLabel.CallsSucceed : DhcpLabel → Prop
  | .poll _ _ env _ => env.bringUp ∧ env.setMtu ∧ env.setAddress ∧ env.setDefaultGateway ∧ env.bringDown
  | .evaluate _ _ _ => True

/-! ### Messages sent -/

/-- A call on the interface, neither a message nor a transition. -/
def DhcpEvent.isCall : DhcpEvent → Bool
  | .link _ => true
  | .address _ => true
  | _ => false

theorem ConfigEffect.calls {n n' : Network} {address : UInt32} {env : ConfigEnv} {es : List DhcpEvent} {success : Bool}
    (h : ConfigEffect n address env n' es success) : ∀ event ∈ es, event.isCall = true := by
  cases h with
  | rejects _ silent _ => simp [silent]
  | raises _ _ event _ _ => simp [event, DhcpEvent.isCall]
  | configures _ _ event _ => simp [event, DhcpEvent.isCall]

theorem haltNetwork_calls (c : DhcpClient) (env : ConfigEnv) :
    ∀ event ∈ (c.haltNetwork env).2, event.isCall = true := by
  unfold DhcpClient.haltNetwork
  cases hset : env.setAddress <;> cases hdown : env.bringDown <;> simp [DhcpEvent.isCall]

/-- Handling a message sends none. -/
theorem HandleEffect.not_sent {c c' : DhcpClient} {msg : Message} {env : ConfigEnv} {es : List DhcpEvent} {done : Bool}
    (h : HandleEffect c msg env c' es done) (message : Message) : DhcpEvent.sent message ∉ es := by
  intro hmem
  cases h with
  | ignores _ silent => simp [silent] at hmem
  | chooses _ _ _ event _ => simp [event] at hmem
  | binds _ _ _ _ event =>
      rw [event, List.mem_append] at hmem
      rcases hmem with hcall | hmoved
      · cases (configureDhcp_effect c msg env).2.calls _ hcall
      · simp at hmoved
  | refuses _ _ _ _ event =>
      rw [event] at hmem
      cases (configureDhcp_effect c msg env).2.calls _ hmem
  | halts _ _ _ event _ =>
      rw [event, List.mem_append] at hmem
      rcases hmem with hcall | hmoved
      · cases haltNetwork_calls c env _ hcall
      · simp at hmoved

/-- A step that sends a message is an evaluation and does nothing else. -/
theorem dhcpStep_sent {s t : DhcpSystem} {l : DhcpLabel} {es : List DhcpEvent} {message : Message}
    (hstep : dhcpStep s l = some (t, es)) (hmem : DhcpEvent.sent message ∈ es) :
    es = [.sent message] ∧ Sends s.client message ∧
      ∃ expiredAt remainingAt adjustment, l = .evaluate expiredAt remainingAt adjustment := by
  cases dhcpStep_effect hstep with
  | waits _ _ _ silent => simp [silent] at hmem
  | rests _ _ _ _ _ _ _ silent => simp [silent] at hmem
  | sends expiredAt remainingAt adjustment label other sent _ event =>
      have heq : message = other := by simpa [event] using hmem
      subst heq
      exact ⟨event, sent, expiredAt, remainingAt, adjustment, label⟩
  | advances _ _ _ _ _ _ _ event _ => simp [event] at hmem
  | handles _ _ _ env _ _ _ msg _ _ event _ =>
      rw [event] at hmem
      exact absurd hmem ((handleMessage_effect s.client msg env).not_sent message)

/-- Every message is sent after a history that allows it. -/
def SentThroughout (allowed : List DhcpEvent → Message → Prop) (events : List DhcpEvent) : Prop :=
  Throughout (fun before event => ∀ message, event = .sent message → allowed before message) events

/-- A step sends at most one message, after the history it finds. -/
theorem dhcpStep_sentThroughout {allowed : List DhcpEvent → Message → Prop} {h es : List DhcpEvent} {s t : DhcpSystem}
    {l : DhcpLabel} (hstep : dhcpStep s l = some (t, es))
    (hallowed : ∀ message expiredAt remainingAt adjustment, l = .evaluate expiredAt remainingAt adjustment →
      Sends s.client message → allowed h message) :
    Throughout (fun before event => ∀ message, event = .sent message → allowed (h ++ before) message) es := by
  by_cases hsent : ∃ message, DhcpEvent.sent message ∈ es
  · obtain ⟨message, hmem⟩ := hsent
    obtain ⟨hone, hsends, _, _, _, hlabel⟩ := dhcpStep_sent hstep hmem
    rw [hone]
    refine throughout_singleton fun other heq => ?_
    cases heq
    rw [List.append_nil]
    exact hallowed message _ _ _ hlabel hsends
  · refine throughout_of_forall fun event hevent before message heq => ?_
    exact absurd ⟨message, heq ▸ hevent⟩ hsent

/-- The rule for what holds of every message sent: an invariant that allows the sends of each state. -/
theorem sentThroughout_of_invariant {guard : DhcpSystem → DhcpLabel → Prop} (I : List DhcpEvent → DhcpSystem → Prop)
    (allowed : List DhcpEvent → Message → Prop)
    (hkeep : ∀ h s l t es, I h s → guard s l → dhcpStep s l = some (t, es) → I (h ++ es) t)
    (hallowed : ∀ h s expiredAt remainingAt adjustment message, I h s →
      guard s (.evaluate expiredAt remainingAt adjustment) → Sends s.client message → allowed h message)
    {s u : DhcpSystem} {labels : List DhcpLabel} {events : List DhcpEvent} (hI : I [] s)
    (hguard : Guarded dhcpStep guard s labels) (hrun : exec dhcpStep s labels = some (u, events)) :
    SentThroughout allowed events := by
  refine (exec_throughout I _ (fun h s l t es hinv hg hs => ?_) hI hguard hrun).2
  refine ⟨hkeep h s l t es hinv hg hs, dhcpStep_sentThroughout hs fun message expiredAt remainingAt adjustment hl => ?_⟩
  subst hl
  exact hallowed h s expiredAt remainingAt adjustment message hinv hg

/-! ### A first exchange -/

/-- An interface with no address yet. -/
def plainNetwork : Network where
  macAddress := #v[0, 0, 0, 0, 0, 1]
  up := false
  address := 0
  subnetMask := 0
  mtu := 1500
  gatewayProperty := none
  dnsProperties := fun _ => none
  defaultGateway := none

def firstStart : DhcpSystem := .start 0 plainNetwork .zero 0 0

/-- The reply of server 1 to the message with this transaction id: an address, and a lease of one second. -/
def serverReply (type : UInt8) (transactionId address : UInt32) : Message :=
  let made := Message.make opBootReply #v[0, 0, 0, 0, 0, 1] type transactionId
  let addressed : Message := ⟨poke made.dhcpData yiaddrOffset (bytes32 address), made.mSize⟩
  ((addressed.addOption optServerId (bytes32 1)).addOption optLeaseTime (netBytes32 1)).endOptions

/-- Every call succeeds, at time 0. -/
def allSucceed : ConfigEnv := ⟨0, 0, true, true, true, fun _ => true, true, true, true⟩

def evaluateNow : DhcpLabel := .evaluate 0 0 0

def receiveReply (type : UInt8) (transactionId : UInt32) : DhcpLabel :=
  .poll 0 (.readable (some (serverReply type transactionId 5))) allSucceed 0

/-- The offer is requested and acknowledged. -/
def ackRun : List DhcpLabel :=
  [evaluateNow, evaluateNow, receiveReply dhcpOffer 1, evaluateNow, receiveReply dhcpAck 2]

end Trout.Dhcp
