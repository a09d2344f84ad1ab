import Trout.CInt
import Trout.DhcpMessage
import Trout.Runs

/-! The DHCP client of `dhcpclient.cpp` with its timers and the interface it configures. A step is the
evaluation of the state up to the wait, or one iteration of the poll loop. What the environment decides
(clock readings, the timeout's fuzz, received messages, results of system calls) is in the labels. -/

namespace Trout.Dhcp
open CInt

/-! ### Timers -/

/-- `Timer`, in milliseconds of the monotonic clock. -/
structure Timer where
  mExpires : Nat

def Timer.expireSeconds (now : Nat) (seconds : UInt32) : Timer := ⟨(now + sizeMul seconds.toNat 1000) % sizeMod⟩

def Timer.expired (t : Timer) (now : Nat) : Bool := decide (t.mExpires ≤ now)

def Timer.remainingMillis (t : Timer) (now : Nat) : Nat := if now > t.mExpires then 0 else t.mExpires - now

/-! ### The network as the client sets it -/

/-- The interface, the properties and the default route. -/
structure Network where
  macAddress : Vector UInt8 6
  /-- What the last `bringUp` or `bringDown` has left. -/
  up : Bool
  /-- The arguments of the last `setAddress`. -/
  address : UInt32
  subnetMask : UInt32
  mtu : UInt16
  gatewayProperty : Option UInt32
  /-- An empty property is none. -/
  dnsProperties : Fin 4 → Option UInt32
  defaultGateway : Option UInt32

/-! ### The client -/

inductive State where
  | init
  | selecting
  | requesting
  | bound
  | renewing
  | rebinding
  deriving DecidableEq

structure DhcpInfo where
  t1 : UInt32
  t2 : UInt32
  leaseTime : UInt32
  mtu : UInt16
  dns : Fin 4 → UInt32
  gateway : UInt32
  subnetMask : UInt32
  serverId : UInt32
  offeredAddress : UInt32

def DhcpInfo.zero : DhcpInfo := ⟨0, 0, 0, 0, fun _ => 0, 0, 0, 0, 0⟩

structure DhcpClient where
  mOptions : UInt32
  mDhcpInfo : DhcpInfo
  network : Network
  mLastMsg : Message
  sNextTransactionId : UInt32
  mT1 : Timer
  mT2 : Timer
  mState : State
  mNextTimeout : Nat
  mFuzzNextTimeout : Bool
  mRequestAddress : UInt32
  mServerAddress : UInt32

/-- `kInitialTimeout`, `kMaxTimeout`, `kNoTimeout` and `kTimeoutSpan` -/
def initialTimeout : Nat := 4000
def maxTimeout : Nat := 64000
def noTimeout : Nat := 0
def timeoutSpan : Int := 1000

/-- `ClientOption::NoGateway` -/
def noGateway : UInt32 := 1

inductive DhcpEvent where
  /-- `bringUp` or `bringDown` has been performed. -/
  | link (up : Bool)
  | address (address : UInt32)
  /-- A call of `sendMessage`. -/
  | sent (message : Message)
  /-- A transition to a state, with the message that caused it. -/
  | moved (state : State) (cause : Option Message)

namespace DhcpClient

/-- The client after its constructor and an `init` in which every call succeeds: the interface is up and
has no address. The members that neither sets have any value. -/
def start (options : UInt32) (network : Network) (info : DhcpInfo) (requestAddress serverAddress : UInt32) :
    DhcpClient where
  mOptions := options
  mDhcpInfo := info
  network := { network with up := true, address := 0, subnetMask := 0 }
  mLastMsg := .zero
  sNextTransactionId := 1
  mT1 := ⟨0⟩
  mT2 := ⟨0⟩
  mState := .init
  mNextTimeout := initialTimeout
  mFuzzNextTimeout := true
  mRequestAddress := requestAddress
  mServerAddress := serverAddress

def setNextState (c : DhcpClient) (state : State) : DhcpClient :=
  { c with mState := state, mNextTimeout := noTimeout, mFuzzNextTimeout := true }

def increaseTimeout (c : DhcpClient) : DhcpClient :=
  if c.mNextTimeout = noTimeout then
    { c with mNextTimeout := initialTimeout }
  else
    let doubled := if c.mNextTimeout < maxTimeout then toUint (c.mNextTimeout * 2 : Nat) else c.mNextTimeout
    { c with mNextTimeout := if doubled > maxTimeout then maxTimeout else doubled }

/-- `calculateTimeoutMillis` with the random adjustment. -/
def calculateTimeoutMillis (c : DhcpClient) (adjustment : Int) : Nat :=
  if ¬ c.mFuzzNextTimeout then c.mNextTimeout
  else if adjustment < 0 ∧ toUint (-adjustment) > c.mNextTimeout then 0
  else toUint (c.mNextTimeout + adjustment)

/-- `mLastMsg = message; sendMessage(mLastMsg);` with a new transaction id. -/
def sendNew (c : DhcpClient) (message : Message) : DhcpClient × List DhcpEvent :=
  ({ c with mLastMsg := message, sNextTransactionId := c.sNextTransactionId + 1 }, [.sent message])

def sendDhcpDiscover (c : DhcpClient) : DhcpClient × List DhcpEvent :=
  c.sendNew (.discover c.network.macAddress c.sNextTransactionId)

def sendDhcpRequest (c : DhcpClient) (destination : UInt32) : DhcpClient × List DhcpEvent :=
  c.sendNew (.request c.network.macAddress c.sNextTransactionId c.mRequestAddress destination)

/-- `setNextState` out of `run`. -/
def moveTo (c : DhcpClient) (state : State) : DhcpClient × List DhcpEvent :=
  (c.setNextState state, [.moved state none])

/-- A message has been sent; the wait for the answer gets longer. -/
def awaitReply (r : DhcpClient × List DhcpEvent) : DhcpClient × List DhcpEvent := (r.1.increaseTimeout, r.2)

/-- The `switch` of `run`; the clock is read for `expired` and for `remainingMillis`. -/
def evaluate (c : DhcpClient) (expiredAt remainingAt : Nat) : DhcpClient × List DhcpEvent :=
  match c.mState with
  | .init => c.moveTo .selecting
  | .selecting => awaitReply c.sendDhcpDiscover
  | .requesting =>
      if c.mNextTimeout ≥ maxTimeout then c.moveTo .init
      else awaitReply (c.sendDhcpRequest c.mServerAddress)
  | .bound =>
      if c.mT1.expired expiredAt then c.moveTo .renewing
      else
        ({ c with mNextTimeout := toUint (c.mT1.remainingMillis remainingAt : Nat), mFuzzNextTimeout := false }, [])
  | .renewing =>
      if c.mT2.expired expiredAt then c.moveTo .rebinding
      else awaitReply (c.sendDhcpRequest c.mServerAddress)
  | .rebinding =>
      if c.mNextTimeout ≥ maxTimeout then c.moveTo .init
      else awaitReply (c.sendDhcpRequest inaddrBroadcast)

end DhcpClient

/-! ### `configureDhcp` -/

/-- `options[i]` of an address list, or none. -/
def addressAt (m : Message) (i : Nat) : UInt32 := load32 m.dhcpData (optionsOffset + i)

/-- The `switch` on the option at index `i`, of which `i + 2` is the index of the data. -/
def DhcpInfo.visit (info : DhcpInfo) (m : Message) (i : Nat) : DhcpInfo :=
  let optCode := m.options i
  let optLength := (m.options (i + 1)).toNat
  let opt := i + 2
  if optCode = optLeaseTime then
    if optLength = 4 then { info with leaseTime := netLoad32 m.dhcpData (optionsOffset + opt) } else info
  else if optCode = optT1 then
    if optLength = 4 then { info with t1 := netLoad32 m.dhcpData (optionsOffset + opt) } else info
  else if optCode = optT2 then
    if optLength = 4 then { info with t2 := netLoad32 m.dhcpData (optionsOffset + opt) } else info
  else if optCode = optSubnetMask then
    if optLength = 4 then { info with subnetMask := addressAt m opt } else info
  else if optCode = optGateway then
    if optLength ≥ 4 then { info with gateway := addressAt m opt } else info
  else if optCode = optMtu then
    if optLength = 2 then { info with mtu := netLoad16 m.dhcpData (optionsOffset + opt) } else info
  else if optCode = optDns then
    { info with dns := fun j => if optLength ≥ 4 * (j + 1) then addressAt m (opt + 4 * j) else info.dns j }
  else if optCode = optServerId then
    if optLength = 4 then { info with serverId := addressAt m opt } else info
  else
    info

/-- The option loop from index `i` on: the information gathered, and whether no option was rejected. -/
def parseOptions (m : Message) : Nat → Nat → DhcpInfo → DhcpInfo × Bool
  | 0, _, info => (info, true)
  | fuel + 1, i, info =>
      if i + 1 < m.optionsSize then
        let optLength := (m.options (i + 1)).toNat
        if m.options i = optEnd then (info, true)
        else if optLength + i ≥ m.optionsSize then (info, false)
        else parseOptions m fuel (i + 2 + optLength) (info.visit m i)
      else
        (info, true)

/-- The results of the calls that configure and halt the network, and the clock readings. -/
structure ConfigEnv where
  t1At : Nat
  t2At : Nat
  bringUp : Bool
  setMtu : Bool
  setGatewayProperty : Bool
  setDnsProperty : Fin 4 → Bool
  setAddress : Bool
  setDefaultGateway : Bool
  bringDown : Bool

namespace DhcpClient

/-- The timers that an accepted lease arms. -/
def armTimers (c : DhcpClient) (info : DhcpInfo) (env : ConfigEnv) : DhcpClient :=
  { c with
    mT1 := .expireSeconds env.t1At (if info.t1 > 0 then info.t1 else info.leaseTime / 2)
    mT2 := .expireSeconds env.t2At (if info.t2 > 0 then info.t2 else info.leaseTime * 7 / 8) }

/-- The part of `configureDhcp` that changes the network. -/
def configureNetwork (c : DhcpClient) (info : DhcpInfo) (env : ConfigEnv) : DhcpClient × List DhcpEvent × Bool :=
  if ¬ env.bringUp then (c, [], false)
  else
    let raised :=
      { c.network with
        up := true
        mtu := if info.mtu ≠ 0 ∧ env.setMtu then info.mtu else c.network.mtu
        gatewayProperty := if env.setGatewayProperty then some info.gateway else c.network.gatewayProperty
        dnsProperties := fun j =>
          if env.setDnsProperty j then (if info.dns j ≠ 0 then some (info.dns j) else none)
          else c.network.dnsProperties j }
    if ¬ env.setAddress then ({ c with network := raised }, [.link true], false)
    else
      let addressed := { raised with address := info.offeredAddress, subnetMask := info.subnetMask }
      let events := [.link true, .address info.offeredAddress]
      if c.mOptions &&& noGateway = 0 then
        if ¬ env.setDefaultGateway then ({ c with network := addressed }, events, false)
        else ({ c with network := { addressed with defaultGateway := some info.gateway } }, events, true)
      else
        ({ c with network := addressed }, events, true)

/-- The part of `configureDhcp` after its option loop. -/
def configureLease (c : DhcpClient) (info : DhcpInfo) (env : ConfigEnv) : DhcpClient × List DhcpEvent × Bool :=
  let informed := { c with mDhcpInfo := info }
  if info.leaseTime = 0 then (informed, [], false)
  else (informed.armTimers info env).configureNetwork info env

/-- The client after the call, the events, and the result. -/
def configureDhcp (c : DhcpClient) (msg : Message) (env : ConfigEnv) : DhcpClient × List DhcpEvent × Bool :=
  if msg.optionsSize < 4 then (c, [], false)
  else
    let parsed := parseOptions msg msg.optionsSize 4 .zero
    if ¬ parsed.2 then ({ c with mDhcpInfo := parsed.1 }, [], false)
    else c.configureLease { parsed.1 with offeredAddress := msg.yiaddr } env

def haltNetwork (c : DhcpClient) (env : ConfigEnv) : DhcpClient × List DhcpEvent :=
  let cleared := if env.setAddress then { c.network with address := 0, subnetMask := 0 } else c.network
  ({ c with network := if env.bringDown then { cleared with up := false } else cleared },
    (if env.setAddress then [.address 0] else []) ++ if env.bringDown then [.link false] else [])

/-! ### `waitAndReceive` -/

/-- What a valid message does while the client waits for an ACK. -/
def handleAnswer (c : DhcpClient) (msg : Message) (env : ConfigEnv) : DhcpClient × List DhcpEvent × Bool :=
  if msg.type = dhcpAck then
    let configured := c.configureDhcp msg env
    if configured.2.2 then
      (configured.1.setNextState .bound, configured.2.1 ++ [.moved .bound (some msg)], true)
    else
      (configured.1, configured.2.1, false)
  else if msg.type = dhcpNak then
    let halted := c.haltNetwork env
    (halted.1.setNextState .init, halted.2 ++ [.moved .init (some msg)], true)
  else
    (c, [], false)

/-- What a valid message does: the client, the events, and whether `waitAndReceive` returns. -/
def handleMessage (c : DhcpClient) (msg : Message) (env : ConfigEnv) : DhcpClient × List DhcpEvent × Bool :=
  match c.mState with
  | .selecting =>
      if msg.type = dhcpOffer then
        let chosen := { c with mServerAddress := msg.serverId, mRequestAddress := msg.yiaddr }
        (chosen.setNextState .requesting, [.moved .requesting (some msg)], true)
      else
        (c, [], false)
  | .requesting => c.handleAnswer msg env
  | .renewing => c.handleAnswer msg env
  | .rebinding => c.handleAnswer msg env
  | _ => (c, [], false)

/-- `receiveDhcpMessage`; a datagram that `receiveRawUdp` rejects is none. -/
def receiveDhcpMessage (c : DhcpClient) (received : Option Message) : Option Message :=
  received.filter fun msg => msg.isValidDhcpMessage opBootReply c.mLastMsg.xid

end DhcpClient

/-! ### Runs -/

/-- Before the `switch` of `run`, or before `ppoll` with the rest of the timeout. -/
inductive Pc where
  | top
  | polling (timeout : Nat)
  deriving DecidableEq

structure DhcpSystem where
  client : DhcpClient
  pc : Pc

inductive PollResult where
  | timeout
  | error
  | readable (received : Option Message)

inductive DhcpLabel where
  | evaluate (expiredAt remainingAt : Nat) (adjustment : Int)
  | poll (startedAt : Nat) (result : PollResult) (env : ConfigEnv) (currentTime : Nat)

/-- The end of an iteration that does not return. -/
def pollAgain (timeout startedAt currentTime : Nat) : Pc :=
  let finish := (startedAt + timeout) % sizeMod
  if currentTime ≥ finish then .top else .polling (toUint (finish - currentTime : Nat))

def dhcpStep (s : DhcpSystem) : DhcpLabel → Option (DhcpSystem × List DhcpEvent)
  | .evaluate expiredAt remainingAt adjustment =>
      if s.pc = .top ∧ -timeoutSpan ≤ adjustment ∧ adjustment ≤ timeoutSpan then
        let r := s.client.evaluate expiredAt remainingAt
        let pc := if r.1.mNextTimeout = noTimeout then .top else .polling (r.1.calculateTimeoutMillis adjustment)
        some (⟨r.1, pc⟩, r.2)
      else
        none
  | .poll startedAt result env currentTime =>
      match s.pc with
      | .top => none
      | .polling timeout =>
          let again := pollAgain timeout startedAt currentTime
          match result with
          | .timeout => some (⟨s.client, .top⟩, [])
          | .error => some (⟨s.client, again⟩, [])
          | .readable received =>
              match s.client.receiveDhcpMessage received with
              | none => some (⟨s.client, again⟩, [])
              | some msg =>
                  let r := s.client.handleMessage msg env
                  some (⟨r.1, if r.2.2 then .top else again⟩, r.2.1)

/-- The start of `run` after a successful `init`. -/
def DhcpSystem.start (options : UInt32) (network : Network) (info : DhcpInfo) (requestAddress serverAddress : UInt32) :
    DhcpSystem :=
  ⟨.start options network info requestAddress serverAddress, .top⟩

end Trout.Dhcp
