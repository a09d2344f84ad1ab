import Trout.DhcpBounds

/-! What a failed configuration leaves behind. `configureDhcp` arms the timers and sets the properties before
the calls that can still fail, and takes nothing back, so a failure leaves no trace exactly when the
message is turned down before the timers are armed. -/

namespace Trout.Dhcp

/-! ### Messages that are turned down -/

/-- The message is too short, has an option that ends two octets or more beyond its end, or conveys no lease time. -/
def Message.Ignored (m : Message) : Prop :=
  m.optionsSize < 4 ∨ (∃ i ∈ loopOptions m, m.optionsSize + 1 < m.optionEnd i) ∨ m.lastWord optLeaseTime = 0

/-- Every call succeeds that makes `configureDhcp` fail; the gateway is not set for a client that has none. -/
def ConfigEnv.Configures (env : ConfigEnv) (options : UInt32) : Prop :=
  env.bringUp = true ∧ env.setAddress = true ∧ (options &&& noGateway = 0 → env.setDefaultGateway = true)

/-- The seconds of T1 and of T2 in a lease. -/
def Message.t1Seconds (m : Message) : UInt32 :=
  if m.lastWord optT1 > 0 then m.lastWord optT1 else m.lastWord optLeaseTime / 2

def Message.t2Seconds (m : Message) : UInt32 :=
  if m.lastWord optT2 > 0 then m.lastWord optT2 else m.lastWord optLeaseTime * 7 / 8

theorem parse_rejects_iff (m : Message) :
    (parseOptions m m.optionsSize 4 .zero).2 = false ↔ ∃ i ∈ loopOptions m, m.optionsSize + 1 < m.optionEnd i := by
  rw [parseOptions_rejected, Option.isNone_eq_false_iff, Option.isSome_iff_exists]
  constructor
  · rintro ⟨i, hrejected⟩
    have hlong := rejectedAt_eq_some hrejected
    refine ⟨i, mem_loopOptions.mpr (Or.inr hrejected), ?_⟩
    rw [Message.optionEnd]
    omega
  · rintro ⟨i, hi, hlong⟩
    rcases mem_loopOptions.mp hi with hvisited | hrejected
    · have hle := visited_end hvisited
      omega
    · exact ⟨i, hrejected⟩

/-! ### The configuration -/

/-- The settings that a failed configuration is to leave alone. -/
structure SameSettings (c c' : DhcpClient) : Prop where
  t1 : c'.mT1 = c.mT1
  t2 : c'.mT2 = c.mT2
  mtu : c'.network.mtu = c.network.mtu
  gatewayProperty : c'.network.gatewayProperty = c.network.gatewayProperty
  dnsProperties : c'.network.dnsProperties = c.network.dnsProperties
  address : c'.network.address = c.network.address
  subnetMask : c'.network.subnetMask = c.network.subnetMask
  defaultGateway : c'.network.defaultGateway = c.network.defaultGateway

theorem SameSettings.informed (c : DhcpClient) (info : DhcpInfo) : SameSettings c { c with mDhcpInfo := info } :=
  ⟨rfl, rfl, rfl, rfl, rfl, rfl, rfl, rfl⟩

/-- An ignored message changes what the client knows of it, and nothing else. -/
theorem configureDhcp_ignored {msg : Message} (hignored : msg.Ignored) (c : DhcpClient) (env : ConfigEnv) :
    SameSettings c (c.configureDhcp msg env).1 := by
  unfold DhcpClient.configureDhcp
  by_cases hshort : msg.optionsSize < 4
  · rw [if_pos hshort]
    exact .informed c c.mDhcpInfo
  rw [if_neg hshort]
  dsimp only
  cases hparsed : (parseOptions msg msg.optionsSize 4 .zero).2 with
  | false =>
      rw [if_pos Bool.false_ne_true]
      exact .informed c _
  | true =>
      have hlease : (parseOptions msg msg.optionsSize 4 .zero).1.leaseTime = 0 := by
        rw [(parseOptions_times msg).1]
        rcases hignored with habsurd | hlong | hnone
        · exact absurd habsurd hshort
        · rw [(parse_rejects_iff msg).mpr hlong] at hparsed
          cases hparsed
        · exact hnone
      rw [if_neg (not_not.mpr rfl), DhcpClient.configureLease, if_pos hlease]
      exact .informed c _

/-- Any other message arms the timers of its lease before the calls are made. -/
theorem configureDhcp_heeded {msg : Message} (hheeded : ¬ msg.Ignored) (c : DhcpClient) (env : ConfigEnv) :
    ∃ info, c.configureDhcp msg env =
      DhcpClient.configureNetwork
        { c with
          mDhcpInfo := info
          mT1 := .expireSeconds env.t1At msg.t1Seconds
          mT2 := .expireSeconds env.t2At msg.t2Seconds } info env := by
  obtain ⟨hlong, hheeded⟩ := not_or.mp hheeded
  obtain ⟨hnone, hlease⟩ := not_or.mp hheeded
  have hparsed : (parseOptions msg msg.optionsSize 4 .zero).2 = true := by
    rw [← Bool.not_eq_false, parse_rejects_iff]
    exact hnone
  obtain ⟨hleaseTime, ht1, ht2⟩ := parseOptions_times msg
  unfold DhcpClient.configureDhcp Message.t1Seconds Message.t2Seconds
  generalize parseOptions msg msg.optionsSize 4 .zero = parsed at hparsed hleaseTime ht1 ht2 ⊢
  refine ⟨{ parsed.1 with offeredAddress := msg.yiaddr }, ?_⟩
  rw [if_neg hlong]
  dsimp only
  rw [hparsed, if_neg (not_not.mpr rfl), DhcpClient.configureLease, if_neg (by rwa [hleaseTime]), ← hleaseTime, ← ht1,
    ← ht2]
  rfl

theorem configureNetwork_result (c : DhcpClient) (info : DhcpInfo) (env : ConfigEnv) :
    (c.configureNetwork info env).2.2 = true ↔ env.Configures c.mOptions := by
  unfold DhcpClient.configureNetwork ConfigEnv.Configures
  cases env.bringUp with
  | false => simp
  | true =>
      cases env.setAddress with
      | false => simp
      | true =>
          by_cases hgateway : c.mOptions &&& noGateway = 0
          · cases env.setDefaultGateway <;> simp [hgateway]
          · simp [hgateway]

/-- A call that fails leaves the timers of the refused lease armed. -/
theorem configureDhcp_failed {msg : Message} {env : ConfigEnv} {c : DhcpClient}
    (hleft : ¬ (msg.Ignored ∨ env.Configures c.mOptions)) :
    (c.configureDhcp msg env).2.2 = false ∧
      (c.configureDhcp msg env).1.mT1 = .expireSeconds env.t1At msg.t1Seconds ∧
      (c.configureDhcp msg env).1.mT2 = .expireSeconds env.t2At msg.t2Seconds := by
  obtain ⟨hheeded, hfails⟩ := not_or.mp hleft
  obtain ⟨info, heq⟩ := configureDhcp_heeded hheeded c env
  rw [heq]
  refine ⟨?_, configureNetwork_timers _ info env⟩
  rw [← Bool.not_eq_true, configureNetwork_result]
  exact hfails

theorem configureDhcp_succeeds {msg : Message} {env : ConfigEnv} {c : DhcpClient} (hheeded : ¬ msg.Ignored)
    (hsucceed : env.Configures c.mOptions) : (c.configureDhcp msg env).2.2 = true := by
  obtain ⟨info, heq⟩ := configureDhcp_heeded hheeded c env
  rw [heq, configureNetwork_result]
  exact hsucceed

/-! ### Failed configurations -/

/-- A configuration that fails leaves the settings alone, and an acknowledgement that fails leaves alone when
the lease is considered for rebinding. -/
structure DhcpClient.LeavesNoTrace (c : DhcpClient) (msg : Message) (env : ConfigEnv) : Prop where
  settings : (c.configureDhcp msg env).2.2 = false → SameSettings c (c.configureDhcp msg env).1
  rebinding : c.mState = .renewing ∨ c.mState = .rebinding → msg.type = dhcpAck →
    (c.handleMessage msg env).2.2 = false → (c.handleMessage msg env).1.mT2 = c.mT2

theorem leavesNoTrace_of_settings {c : DhcpClient} {msg : Message} {env : ConfigEnv}
    (hsettings : (c.configureDhcp msg env).2.2 = false → SameSettings c (c.configureDhcp msg env).1) :
    c.LeavesNoTrace msg env := by
  refine ⟨hsettings, fun hstate hack => ?_⟩
  have hanswer : c.handleMessage msg env = c.handleAnswer msg env := by
    unfold DhcpClient.handleMessage
    rcases hstate with hrenewing | hrebinding
    · rw [hrenewing]
    · rw [hrebinding]
  rw [hanswer, DhcpClient.handleAnswer, if_pos hack]
  generalize c.configureDhcp msg env = configured at hsettings ⊢
  dsimp only
  cases hresult : configured.2.2 with
  | true =>
      rw [if_pos rfl]
      intro hfailed
      cases hfailed
  | false =>
      rw [if_neg Bool.false_ne_true]
      exact fun _ => (hsettings hresult).t2

/-- Whatever the client was before, a failed configuration leaves no trace exactly when the message is ignored
or no call fails. In every other case the configuration fails with the timers of the refused lease armed. -/
theorem failed_configuration (options : UInt32) (msg : Message) (env : ConfigEnv) :
    ((∀ c : DhcpClient, c.mOptions = options → c.LeavesNoTrace msg env) ↔ msg.Ignored ∨ env.Configures options) ∧
      ∀ c : DhcpClient, c.mOptions = options → ¬ (msg.Ignored ∨ env.Configures options) →
        (c.configureDhcp msg env).2.2 = false ∧
          (c.configureDhcp msg env).1.mT1 = .expireSeconds env.t1At msg.t1Seconds ∧
          (c.configureDhcp msg env).1.mT2 = .expireSeconds env.t2At msg.t2Seconds := by
  refine ⟨⟨fun hall => ?_, fun hcondition c hoptions => leavesNoTrace_of_settings fun hresult => ?_⟩,
    fun c hoptions hleft => configureDhcp_failed (hoptions ▸ hleft)⟩
  · by_contra hleft
    -- a client whose T1 expires at another time
    let c : DhcpClient :=
      { firstStart.client with
        mOptions := options
        mT1 := ⟨(Timer.expireSeconds env.t1At msg.t1Seconds).mExpires + 1⟩ }
    obtain ⟨hresult, harmed, -⟩ := configureDhcp_failed (c := c) hleft
    have hsame := ((hall c rfl).settings hresult).t1
    rw [harmed] at hsame
    exact absurd (congrArg Timer.mExpires hsame) (Nat.ne_of_lt (Nat.lt_succ_self _))
  · by_cases hignored : msg.Ignored
    · exact configureDhcp_ignored hignored c env
    · subst hoptions
      rw [configureDhcp_succeeds hignored (hcondition.resolve_left hignored)] at hresult
      cases hresult

/-- An acknowledgement with a lease of eight seconds. -/
def eightSecondAck : Message :=
  (Message.make opBootReply plainNetwork.macAddress dhcpAck 2).addOption optLeaseTime (netBytes32 8)

/-- The lease is to be renewed from second 4 on, and considered for rebinding at second 7. -/
def renewingClient : DhcpClient :=
  { (firstStart.client.configureDhcp eightSecondAck allSucceed).1 with mState := .renewing }

/-- At second 6 the interface cannot be brought up. -/
def interfaceFails : ConfigEnv := { allSucceed with t1At := 6000, t2At := 6000, bringUp := false }

theorem failed_renewal_arms : renewingClient.mT2.mExpires = 7000 ∧
    (renewingClient.handleMessage eightSecondAck interfaceFails).2.2 = false ∧
    (renewingClient.handleMessage eightSecondAck interfaceFails).1.mT2.mExpires = 13000 ∧
    ¬ renewingClient.LeavesNoTrace eightSecondAck interfaceFails := by
  have hbefore : renewingClient.mT2.mExpires = 7000 := by decide +kernel
  have hfailed : (renewingClient.handleMessage eightSecondAck interfaceFails).2.2 = false := by decide +kernel
  have hafter : (renewingClient.handleMessage eightSecondAck interfaceFails).1.mT2.mExpires = 13000 := by
    decide +kernel
  refine ⟨hbefore, hfailed, hafter, fun htrace => ?_⟩
  have hsame := htrace.rebinding (Or.inl rfl) (by decide +kernel) hfailed
  rw [hsame, hbefore] at hafter
  exact absurd hafter (by decide)

end Trout.Dhcp
