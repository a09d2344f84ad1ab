import Trout.DhcpClient
import Trout.DhcpSteps

/-! The timers of a lease. `configureDhcp` takes T1 and T2 from the acknowledgement as they are, and
computes from the lease time those that it does not give. The computation of T2 is in 32 bits. -/

namespace Trout.Dhcp
open CInt Runs

/-! ### The options that the loop visits -/

/-- The indices of the options that the loop of `configureDhcp` visits from index `i` on. -/
def visited (m : Message) : Nat → Nat → List Nat
  | 0, _ => []
  | fuel + 1, i =>
      if i + 1 < m.optionsSize ∧ m.options i ≠ optEnd ∧ (m.options (i + 1)).toNat + i < m.optionsSize then
        i :: visited m fuel (i + 2 + (m.options (i + 1)).toNat)
      else
        []

theorem parseOptions_eq_foldl (m : Message) (fuel i : Nat) (info : DhcpInfo) :
    (parseOptions m fuel i info).1 = (visited m fuel i).foldl (fun info j => info.visit m j) info := by
  induction fuel generalizing i info with
  | zero => rfl
  | succ fuel ih =>
      rw [parseOptions, visited]
      by_cases hmore : i + 1 < m.optionsSize
      · rw [if_pos hmore]
        dsimp only
        by_cases hend : m.options i = optEnd
        · rw [if_pos hend, if_neg (fun h => h.2.1 hend)]
          rfl
        rw [if_neg hend]
        by_cases hfits : (m.options (i + 1)).toNat + i ≥ m.optionsSize
        · rw [if_pos hfits, if_neg (fun h => absurd h.2.2 (Nat.not_lt.mpr hfits))]
          rfl
        · rw [if_neg hfits, if_pos ⟨hmore, hend, Nat.lt_of_not_le hfits⟩, List.foldl_cons]
          exact ih _ _
      · rw [if_neg hmore, if_neg (fun h => hmore h.1)]
        rfl

/-- The value of a four-byte option with the code at the index. -/
def Message.word? (m : Message) (code : UInt8) (i : Nat) : Option UInt32 :=
  if m.options i = code ∧ (m.options (i + 1)).toNat = 4 then some (netLoad32 m.dhcpData (optionsOffset + (i + 2)))
  else none

/-- The value of the last visited four-byte option with the code, 0 without one. -/
def Message.lastWord (m : Message) (code : UInt8) : UInt32 := lastSet (m.word? code) 0 (visited m m.optionsSize 4)

theorem word?_of_ne {m : Message} {code : UInt8} {i : Nat} (h : m.options i ≠ code) : m.word? code i = none := by
  rw [Message.word?, if_neg fun hword => h hword.1]

theorem word?_of_eq {m : Message} {code : UInt8} {i : Nat} (h : m.options i = code) :
    m.word? code i = if (m.options (i + 1)).toNat = 4 then some (netLoad32 m.dhcpData (optionsOffset + (i + 2)))
      else none := by
  rw [Message.word?]
  simp only [h, true_and]

/-- An option sets the time that it is an option for. -/
theorem visit_times (info : DhcpInfo) (m : Message) (i : Nat) :
    (info.visit m i).leaseTime = (m.word? optLeaseTime i).getD info.leaseTime ∧
      (info.visit m i).t1 = (m.word? optT1 i).getD info.t1 ∧ (info.visit m i).t2 = (m.word? optT2 i).getD info.t2 := by
  rw [DhcpInfo.visit]
  by_cases hlease : m.options i = optLeaseTime
  · rw [if_pos hlease, word?_of_eq hlease, word?_of_ne (by rw [hlease]; decide), word?_of_ne (by rw [hlease]; decide)]
    split <;> exact ⟨rfl, rfl, rfl⟩
  rw [if_neg hlease, word?_of_ne hlease]
  by_cases ht1 : m.options i = optT1
  · rw [if_pos ht1, word?_of_eq ht1, word?_of_ne (by rw [ht1]; decide)]
    split <;> exact ⟨rfl, rfl, rfl⟩
  rw [if_neg ht1, word?_of_ne ht1]
  by_cases ht2 : m.options i = optT2
  · rw [if_pos ht2, word?_of_eq ht2]
    split <;> exact ⟨rfl, rfl, rfl⟩
  · rw [if_neg ht2, word?_of_ne ht2]
    -- the other options leave the times alone
    split_ifs <;> exact ⟨rfl, rfl, rfl⟩

theorem foldl_visit_times (m : Message) (is : List Nat) (info : DhcpInfo) :
    (is.foldl (fun info j => info.visit m j) info).leaseTime = lastSet (m.word? optLeaseTime) info.leaseTime is ∧
      (is.foldl (fun info j => info.visit m j) info).t1 = lastSet (m.word? optT1) info.t1 is ∧
        (is.foldl (fun info j => info.visit m j) info).t2 = lastSet (m.word? optT2) info.t2 is := by
  induction is generalizing info with
  | nil => exact ⟨rfl, rfl, rfl⟩
  | cons i is ih =>
      obtain ⟨hlease, ht1, ht2⟩ := visit_times info m i
      have hrest := ih (info.visit m i)
      rw [hlease, ht1, ht2] at hrest
      exact hrest

/-- The loop gathers the last time of each kind. -/
theorem parseOptions_times (m : Message) :
    (parseOptions m m.optionsSize 4 .zero).1.leaseTime = m.lastWord optLeaseTime ∧
      (parseOptions m m.optionsSize 4 .zero).1.t1 = m.lastWord optT1 ∧
        (parseOptions m m.optionsSize 4 .zero).1.t2 = m.lastWord optT2 := by
  rw [parseOptions_eq_foldl]
  exact foldl_visit_times m _ .zero

/-! ### The timers of an accepted lease -/

theorem configureNetwork_timers (c : DhcpClient) (info : DhcpInfo) (env : ConfigEnv) :
    (c.configureNetwork info env).1.mT1 = c.mT1 ∧ (c.configureNetwork info env).1.mT2 = c.mT2 := by
  obtain ⟨network, hframe⟩ := configureNetwork_frame c info env
  rw [hframe]
  exact ⟨rfl, rfl⟩

theorem configureLease_timers {c : DhcpClient} {info : DhcpInfo} {env : ConfigEnv}
    (haccepted : (c.configureLease info env).2.2 = true) :
    info.leaseTime ≠ 0 ∧
      (c.configureLease info env).1.mT1 =
        .expireSeconds env.t1At (if info.t1 > 0 then info.t1 else info.leaseTime / 2) ∧
      (c.configureLease info env).1.mT2 =
        .expireSeconds env.t2At (if info.t2 > 0 then info.t2 else info.leaseTime * 7 / 8) := by
  unfold DhcpClient.configureLease at haccepted ⊢
  by_cases hlease : info.leaseTime = 0
  · rw [if_pos hlease] at haccepted
    cases haccepted
  · rw [if_neg hlease]
    have htimers := configureNetwork_timers (({ c with mDhcpInfo := info } : DhcpClient).armTimers info env) info env
    exact ⟨hlease, htimers⟩

/-- An acknowledgement is rejected by the loop, or its lease is configured. -/
theorem configureDhcp_rejected_or_lease (c : DhcpClient) (msg : Message) (env : ConfigEnv) :
    (c.configureDhcp msg env).2.2 = false ∨ c.configureDhcp msg env =
      c.configureLease { (parseOptions msg msg.optionsSize 4 .zero).1 with offeredAddress := msg.yiaddr } env := by
  unfold DhcpClient.configureDhcp
  split
  · exact Or.inl rfl
  dsimp only
  split
  · exact Or.inl rfl
  · exact Or.inr rfl

/-- What an accepted acknowledgement arms. -/
theorem configureDhcp_timers {c : DhcpClient} {msg : Message} {env : ConfigEnv}
    (haccepted : (c.configureDhcp msg env).2.2 = true) :
    msg.lastWord optLeaseTime ≠ 0 ∧
      (c.configureDhcp msg env).1.mT1 = .expireSeconds env.t1At
        (if msg.lastWord optT1 > 0 then msg.lastWord optT1 else msg.lastWord optLeaseTime / 2) ∧
      (c.configureDhcp msg env).1.mT2 = .expireSeconds env.t2At
        (if msg.lastWord optT2 > 0 then msg.lastWord optT2 else msg.lastWord optLeaseTime * 7 / 8) := by
  obtain ⟨hlease, ht1, ht2⟩ := parseOptions_times msg
  rcases configureDhcp_rejected_or_lease c msg env with hrejected | heq
  · rw [hrejected] at haccepted
    cases haccepted
  · rw [heq] at haccepted ⊢
    generalize (parseOptions msg msg.optionsSize 4 .zero).1 = parsed at hlease ht1 ht2 haccepted ⊢
    rw [← hlease, ← ht1, ← ht2]
    exact configureLease_timers haccepted

/-- The timers have been armed with T1 at most T2 and T2 at most the lease time. -/
def TimersOrdered (c : DhcpClient) (env : ConfigEnv) (lease : UInt32) : Prop :=
  ∃ d1 d2 : UInt32, c.mT1 = .expireSeconds env.t1At d1 ∧ c.mT2 = .expireSeconds env.t2At d2 ∧ d1 ≤ d2 ∧ d2 ≤ lease

/-- T1 is what the server gives, or half the lease; T2 is what the server gives, or seven eighths of a lease
whose multiple fits 32 bits. The timers of such a lease are ordered when the server gives neither. -/
theorem lease_timers {c : DhcpClient} {msg : Message} {env : ConfigEnv}
    (haccepted : (c.configureDhcp msg env).2.2 = true) :
    ∃ d1 d2 : UInt32,
      (c.configureDhcp msg env).1.mT1 = .expireSeconds env.t1At d1 ∧
        (c.configureDhcp msg env).1.mT2 = .expireSeconds env.t2At d2 ∧
        (msg.lastWord optT1 ≠ 0 → d1 = msg.lastWord optT1) ∧
        (msg.lastWord optT1 = 0 → d1.toNat = (msg.lastWord optLeaseTime).toNat / 2) ∧
        (msg.lastWord optT2 ≠ 0 → d2 = msg.lastWord optT2) ∧
        (msg.lastWord optT2 = 0 → 7 * (msg.lastWord optLeaseTime).toNat < 2 ^ 32 →
          d2.toNat = 7 * (msg.lastWord optLeaseTime).toNat / 8 ∧
            (msg.lastWord optT1 = 0 → d1 ≤ d2 ∧ d2 ≤ msg.lastWord optLeaseTime)) := by
  obtain ⟨hlease, ht1, ht2⟩ := configureDhcp_timers haccepted
  generalize msg.lastWord optLeaseTime = lease at *
  generalize msg.lastWord optT1 = t1 at *
  generalize msg.lastWord optT2 = t2 at *
  have hpos (t : UInt32) : t > 0 ↔ t ≠ 0 := by
    rw [gt_iff_lt, UInt32.lt_iff_toNat_lt, ne_eq, ← UInt32.toNat_inj, UInt32.toNat_zero]
    omega
  refine ⟨_, _, ht1, ht2, fun h => if_pos ((hpos t1).mpr h), fun h => ?_, fun h => if_pos ((hpos t2).mpr h),
    fun h hfits => ?_⟩
  · rw [if_neg fun hgiven => (hpos t1).mp hgiven h, UInt32.toNat_div]
    rfl
  · have hseven : (lease * 7 / 8).toNat = 7 * lease.toNat / 8 := by
      rw [UInt32.toNat_div, UInt32.toNat_mul]
      change lease.toNat * 7 % 2 ^ 32 / 8 = 7 * lease.toNat / 8
      omega
    rw [if_neg fun hgiven => (hpos t2).mp hgiven h]
    refine ⟨hseven, fun h1 => ?_⟩
    rw [if_neg fun hgiven => (hpos t1).mp hgiven h1, UInt32.le_iff_toNat_le, UInt32.le_iff_toNat_le, hseven,
      UInt32.toNat_div]
    change lease.toNat / 2 ≤ 7 * lease.toNat / 8 ∧ 7 * lease.toNat / 8 ≤ lease.toNat
    omega

/-- The acknowledgement of a lease of one second. -/
theorem lease_timers_oneSecond : ∃ d1 d2 : UInt32,
    (firstStart.client.configureDhcp (serverReply dhcpAck 2 5) allSucceed).1.mT1 = .expireSeconds 0 d1 ∧
      (firstStart.client.configureDhcp (serverReply dhcpAck 2 5) allSucceed).1.mT2 = .expireSeconds 0 d2 ∧
        d1 ≤ d2 ∧ d2 ≤ 1 := by
  obtain ⟨d1, d2, ht1, ht2, -, -, -, hexact⟩ := @lease_timers firstStart.client (serverReply dhcpAck 2 5) allSucceed rfl
  have hlease : (serverReply dhcpAck 2 5).lastWord optLeaseTime = 1 := by decide +kernel
  have habsent : (serverReply dhcpAck 2 5).lastWord optT1 = 0 ∧ (serverReply dhcpAck 2 5).lastWord optT2 = 0 := by
    decide +kernel
  rw [hlease] at hexact
  obtain ⟨-, hordered⟩ := hexact habsent.2 (by decide)
  exact ⟨d1, d2, ht1, ht2, hordered habsent.1⟩

/-- An acknowledgement of eight seconds with T1 of six and T2 of four. -/
def disorderedAck : Message :=
  (((Message.make opBootReply plainNetwork.macAddress dhcpAck 2).addOption optLeaseTime (netBytes32 8)).addOption optT1
    (netBytes32 6)).addOption optT2 (netBytes32 4)

theorem expireSeconds_zero (d : UInt32) : (Timer.expireSeconds 0 d).mExpires = d.toNat * 1000 := by
  have hlt : d.toNat * 1000 < 2 ^ 64 := by
    have := d.toNat_lt
    omega
  rw [Timer.expireSeconds, sizeMul_of_lt hlt, Nat.zero_add]
  exact Nat.mod_eq_of_lt hlt

/-- Of timers armed at time 0 in order, T1 expires first. -/
theorem TimersOrdered.expires {c : DhcpClient} {env : ConfigEnv} {lease : UInt32} (h : TimersOrdered c env lease)
    (ht1 : env.t1At = 0) (ht2 : env.t2At = 0) : c.mT1.mExpires ≤ c.mT2.mExpires := by
  obtain ⟨d1, d2, harmed1, harmed2, hle, -⟩ := h
  rw [UInt32.le_iff_toNat_le] at hle
  rw [harmed1, harmed2, ht1, ht2, expireSeconds_zero, expireSeconds_zero]
  exact Nat.mul_le_mul_right 1000 hle

theorem timers_disordered : (firstStart.client.configureDhcp disorderedAck allSucceed).2.2 = true ∧
    ¬ TimersOrdered (firstStart.client.configureDhcp disorderedAck allSucceed).1 allSucceed
      (disorderedAck.lastWord optLeaseTime) := by
  have hlate : (firstStart.client.configureDhcp disorderedAck allSucceed).1.mT2.mExpires <
      (firstStart.client.configureDhcp disorderedAck allSucceed).1.mT1.mExpires := by decide +kernel
  exact ⟨by decide +kernel, fun h => Nat.lt_irrefl _ (Nat.lt_of_lt_of_le hlate (h.expires rfl rfl))⟩

end Trout.Dhcp
