import Trout.DhcpTimers

/-! The wait of a bound client for the end of T1, under a clock that goes on only while the client is blocked in
`ppoll`. The rest of T1 is narrowed to the 32 bits of `mNextTimeout`, and after every datagram to those of `timeout`;
a wait can get shorter by this, never longer. -/

namespace Trout.Dhcp
open CInt Runs

/-- `struct timespec` -/
structure Timespec where
  tvSec : Int
  tvNsec : Int

/-- The time that `waitAndReceive` hands to `ppoll`. -/
def pollTimespec (timeout : Nat) : Timespec :=
  let tvSec := toLong (timeout / 1000 : Nat)
  ⟨tvSec, toLong ((timeout - tvSec * 1000) * 1000000)⟩

/-- The readings of a step that starts at the time `now`: the clock stands still but for `ppoll`. -/
def DhcpLabel.ReadsFrom (now : Nat) : DhcpLabel → Prop
  | .evaluate expiredAt remainingAt _ => expiredAt = now ∧ remainingAt = now
  | .poll startedAt _ env currentTime =>
      startedAt = now ∧ now ≤ currentTime ∧ env.t1At = currentTime ∧ env.t2At = currentTime

instance (now : Nat) : ∀ l : DhcpLabel, Decidable (l.ReadsFrom now)
  | .evaluate expiredAt remainingAt _ => inferInstanceAs (Decidable (expiredAt = now ∧ remainingAt = now))
  | .poll startedAt _ env currentTime =>
      inferInstanceAs (Decidable (startedAt = now ∧ now ≤ currentTime ∧ env.t1At = currentTime ∧ env.t2At = currentTime))

/-- The time after a step that starts at the time `now`. -/
def DhcpLabel.clockAfter (now : Nat) : DhcpLabel → Nat
  | .evaluate _ _ _ => now
  | .poll _ _ _ currentTime => currentTime

/-- The client with its clock. -/
def waitStep (s : DhcpSystem × Nat) (l : DhcpLabel) : Option ((DhcpSystem × Nat) × List DhcpEvent) :=
  if l.ReadsFrom s.2 then (dhcpStep s.1 l).map fun r => ((r.1, l.clockAfter s.2), r.2) else none

theorem waitStep_eq_some {s t : DhcpSystem × Nat} {l : DhcpLabel} {es : List DhcpEvent} :
    waitStep s l = some (t, es) ↔ l.ReadsFrom s.2 ∧ t.2 = l.clockAfter s.2 ∧ dhcpStep s.1 l = some (t.1, es) := by
  rw [waitStep]
  constructor
  · intro h
    obtain ⟨hreads, hmap⟩ := Option.ite_none_right_eq_some.mp h
    obtain ⟨⟨u, fs⟩, hstep, hpair⟩ := Option.map_eq_some_iff.mp hmap
    cases hpair
    exact ⟨hreads, rfl, hstep⟩
  · rintro ⟨hreads, hnow, hstep⟩
    rw [if_pos hreads, hstep, Option.map_some, ← hnow]

/-! ### The timespec -/

theorem pollTimespec_exact {timeout : Nat} (h : timeout < 2 ^ 32) :
    0 ≤ (pollTimespec timeout).tvNsec ∧ (pollTimespec timeout).tvNsec < 10 ^ 9 ∧
      (pollTimespec timeout).tvSec * 10 ^ 9 + (pollTimespec timeout).tvNsec = timeout * 10 ^ 6 := by
  have hsec : toLong (timeout / 1000 : Nat) = (timeout / 1000 : Nat) := toLong_natCast (by omega)
  have hrest : ((timeout : Int) - (timeout / 1000 : Nat) * 1000) * 1000000 = (timeout % 1000 * 1000000 : Nat) := by
    omega
  have hnsec : toLong (timeout % 1000 * 1000000 : Nat) = (timeout % 1000 * 1000000 : Nat) :=
    toLong_natCast (by omega)
  simp only [pollTimespec, hsec, hrest, hnsec]
  omega

/-! ### Timers that have been armed -/

/-- The timer has been set by `expireSeconds`, at some time. -/
def Timer.Armed (t : Timer) : Prop := ∃ (armedAt : Nat) (seconds : UInt32), t = .expireSeconds armedAt seconds

theorem Timer.Armed.lt {t : Timer} (h : t.Armed) : t.mExpires < 2 ^ 64 := by
  obtain ⟨armedAt, seconds, rfl⟩ := h
  exact Nat.mod_lt _ (by decide)

theorem setNextState_t1 (c : DhcpClient) (state : State) : (c.setNextState state).mT1 = c.mT1 := rfl

theorem configureLease_armed {c : DhcpClient} (h : c.mT1.Armed) (info : DhcpInfo) (env : ConfigEnv) :
    (c.configureLease info env).1.mT1.Armed := by
  rw [DhcpClient.configureLease]
  by_cases hlease : info.leaseTime = 0
  · rw [if_pos hlease]
    exact h
  · rw [if_neg hlease, (configureNetwork_timers _ info env).1]
    exact ⟨env.t1At, _, rfl⟩

theorem configureDhcp_armed {c : DhcpClient} (h : c.mT1.Armed) (msg : Message) (env : ConfigEnv) :
    (c.configureDhcp msg env).1.mT1.Armed := by
  rw [DhcpClient.configureDhcp]
  by_cases hshort : msg.optionsSize < 4
  · rw [if_pos hshort]
    exact h
  rw [if_neg hshort]
  dsimp only
  by_cases hrejected : ¬ (parseOptions msg msg.optionsSize 4 .zero).2 = true
  · rw [if_pos hrejected]
    exact h
  · rw [if_neg hrejected]
    exact configureLease_armed h _ env

theorem handleMessage_armed {c : DhcpClient} (h : c.mT1.Armed) (msg : Message) (env : ConfigEnv) :
    (c.handleMessage msg env).1.mT1.Armed := by
  have heffect := handleMessage_effect c msg env
  generalize c.handleMessage msg env = r at heffect ⊢
  cases heffect with
  | ignores same _ => exact same ▸ h
  | chooses _ _ result _ _ =>
      rw [result]
      exact h
  | binds _ _ _ result _ =>
      rw [result, setNextState_t1]
      exact configureDhcp_armed h msg env
  | refuses _ _ _ result _ =>
      rw [result]
      exact configureDhcp_armed h msg env
  | halts _ _ result _ _ =>
      rw [result, setNextState_t1]
      exact h

theorem evaluate_armed {c : DhcpClient} (h : c.mT1.Armed) (expiredAt remainingAt : Nat) :
    (c.evaluate expiredAt remainingAt).1.mT1.Armed := by
  have heffect := evaluate_effect c expiredAt remainingAt
  generalize c.evaluate expiredAt remainingAt = r at heffect ⊢
  cases heffect with
  | advances state edge => exact h
  | rests here timeout => exact h
  | sends message sent =>
      rw [DhcpClient.awaitReply, DhcpClient.increaseTimeout]
      split <;> exact h

/-! ### The bound state -/

/-- Only a bound client is bound after its evaluation: one that waits for the rest of T1. -/
theorem evaluate_bound {c : DhcpClient} {expiredAt remainingAt : Nat}
    (h : (c.evaluate expiredAt remainingAt).1.mState = .bound) :
    c.mState = .bound ∧ c.mT1.expired expiredAt = false ∧
      (c.evaluate expiredAt remainingAt).1 =
        { c with mNextTimeout := toUint (c.mT1.remainingMillis remainingAt : Nat), mFuzzNextTimeout := false } := by
  have heffect := evaluate_effect c expiredAt remainingAt
  by_cases hbound : c.mState = .bound
  · refine ⟨hbound, ?_⟩
    simp only [DhcpClient.evaluate, hbound] at h ⊢
    by_cases hexpired : c.mT1.expired expiredAt = true
    · rw [if_pos hexpired] at h
      cases h
    · rw [if_neg hexpired]
      exact ⟨Bool.eq_false_of_not_eq_true hexpired, rfl⟩
  · generalize c.evaluate expiredAt remainingAt = r at heffect h
    cases heffect with
    | advances state edge => cases edge <;> cases h
    | rests here _ => exact absurd here hbound
    | sends message sent =>
        rw [DhcpClient.awaitReply, (increaseTimeout_same _).1.state] at h
        exact absurd h sent.state.2

/-- A message that leaves the client bound is ignored by a bound client, or ends the wait. -/
theorem handleMessage_bound {c : DhcpClient} {msg : Message} {env : ConfigEnv}
    (h : (c.handleMessage msg env).1.mState = .bound) :
    (c.mState = .bound ∧ c.handleMessage msg env = (c, [], false)) ∨ (c.handleMessage msg env).2.2 = true := by
  by_cases hbound : c.mState = .bound
  · left
    refine ⟨hbound, ?_⟩
    simp only [DhcpClient.handleMessage, hbound]
  right
  have hkept : (c.configureDhcp msg env).1.mState = c.mState := (configureDhcp_effect c msg env).1.state
  have hanswer : (c.handleAnswer msg env).1.mState = .bound → (c.handleAnswer msg env).2.2 = true := by
    intro hafter
    rw [DhcpClient.handleAnswer] at hafter ⊢
    dsimp only at hafter ⊢
    by_cases hack : msg.type = dhcpAck
    · rw [if_pos hack] at hafter ⊢
      by_cases hconfigured : (c.configureDhcp msg env).2.2 = true
      · rw [if_pos hconfigured]
      · rw [if_neg hconfigured] at hafter
        dsimp only at hafter
        rw [hkept] at hafter
        exact absurd hafter hbound
    · rw [if_neg hack] at hafter ⊢
      by_cases hnak : msg.type = dhcpNak
      · rw [if_pos hnak]
      · rw [if_neg hnak] at hafter
        exact absurd hafter hbound
  cases hstate : c.mState with
  | init =>
      simp only [DhcpClient.handleMessage, hstate] at h
      cases h
  | selecting =>
      simp only [DhcpClient.handleMessage, hstate] at h ⊢
      by_cases hoffer : msg.type = dhcpOffer
      · rw [if_pos hoffer]
      · rw [if_neg hoffer] at h
        exact absurd (hstate.symm.trans h) (by decide)
  | requesting =>
      simp only [DhcpClient.handleMessage, hstate] at h ⊢
      exact hanswer h
  | bound => exact absurd hstate hbound
  | renewing =>
      simp only [DhcpClient.handleMessage, hstate] at h ⊢
      exact hanswer h
  | rebinding =>
      simp only [DhcpClient.handleMessage, hstate] at h ⊢
      exact hanswer h

/-- The wait that a bound client is in ends when T1 does, or before. -/
structure WaitsInTime (s : DhcpSystem × Nat) : Prop where
  armed : s.1.client.mT1.Armed
  inTime : s.1.client.mState = .bound → ∀ timeout, s.1.pc = .polling timeout →
    timeout < 2 ^ 32 ∧ s.2 + timeout ≤ s.1.client.mT1.mExpires

theorem toUint_le (n : Nat) : toUint (n : Int) ≤ n ∧ toUint (n : Int) < 2 ^ 32 := by
  simp only [toUint, uintMod]
  omega

/-- What is left of a wait ends when the wait does, or before. -/
theorem pollAgain_inTime {timeout startedAt currentTime expires : Nat} (hexpires : expires < 2 ^ 64)
    (hend : startedAt + timeout ≤ expires) {rest : Nat} (h : pollAgain timeout startedAt currentTime = .polling rest) :
    rest < 2 ^ 32 ∧ currentTime + rest ≤ expires := by
  have hmod : (startedAt + timeout) % sizeMod = startedAt + timeout := Nat.mod_eq_of_lt (lt_of_le_of_lt hend hexpires)
  simp only [pollAgain, hmod] at h
  by_cases hover : startedAt + timeout ≤ currentTime
  · rw [if_pos hover] at h
    cases h
  · rw [if_neg hover] at h
    cases h
    obtain ⟨hle, hlt⟩ := toUint_le (startedAt + timeout - currentTime)
    exact ⟨hlt, by omega⟩

/-- A bound client waits for what is left of T1, or for less. -/
theorem evaluate_inTime {c : DhcpClient} {now : Nat} (hbound : (c.evaluate now now).1.mState = .bound)
    (adjustment : Int) :
    (c.evaluate now now).1.calculateTimeoutMillis adjustment < 2 ^ 32 ∧
      now + (c.evaluate now now).1.calculateTimeoutMillis adjustment ≤ c.mT1.mExpires := by
  obtain ⟨-, hexpired, heq⟩ := evaluate_bound hbound
  have hleft : now < c.mT1.mExpires := by
    rw [Timer.expired, decide_eq_false_iff_not] at hexpired
    omega
  obtain ⟨hle, hlt⟩ := toUint_le (c.mT1.remainingMillis now)
  have hremaining : c.mT1.remainingMillis now = c.mT1.mExpires - now := if_neg (by omega)
  have htimeout : (c.evaluate now now).1.calculateTimeoutMillis adjustment = toUint (c.mT1.remainingMillis now : Nat) := by
    rw [heq]
    exact if_pos Bool.false_ne_true
  rw [htimeout]
  exact ⟨hlt, by omega⟩

/-- What a bound client that goes on polling waits for ends in time, too. -/
theorem WaitsInTime.again {s : DhcpSystem × Nat} (h : WaitsInTime s) {timeout currentTime rest : Nat}
    (hpc : s.1.pc = .polling timeout) (hbound : s.1.client.mState = .bound)
    (hrest : pollAgain timeout s.2 currentTime = .polling rest) :
    rest < 2 ^ 32 ∧ currentTime + rest ≤ s.1.client.mT1.mExpires :=
  pollAgain_inTime h.armed.lt (h.inTime hbound timeout hpc).2 hrest

theorem WaitsInTime.evaluates {c : DhcpClient} {now : Nat} (harmed : c.mT1.Armed) (adjustment : Int) {pc : Pc}
    (hpc : ∀ timeout, pc = .polling timeout → timeout = (c.evaluate now now).1.calculateTimeoutMillis adjustment) :
    WaitsInTime (⟨(c.evaluate now now).1, pc⟩, now) where
  armed := evaluate_armed harmed now now
  inTime hbound timeout htimeout := by
    obtain ⟨-, -, heq⟩ := evaluate_bound hbound
    have hin := evaluate_inTime hbound adjustment
    rw [hpc timeout htimeout]
    rw [heq] at hin ⊢
    exact hin

/-- A bound client ignores what it receives, and one that gets bound returns from its wait. -/
theorem WaitsInTime.handles {s : DhcpSystem × Nat} (h : WaitsInTime s) {timeout currentTime : Nat}
    (hpc : s.1.pc = .polling timeout) (msg : Message) (env : ConfigEnv) :
    WaitsInTime (⟨(s.1.client.handleMessage msg env).1,
      if (s.1.client.handleMessage msg env).2.2 = true then .top else pollAgain timeout s.2 currentTime⟩, currentTime) where
  armed := handleMessage_armed h.armed msg env
  inTime hbound rest hrest := by
    dsimp only at hbound hrest ⊢
    rcases handleMessage_bound hbound with ⟨hstill, hignored⟩ | hreturns
    · rw [hignored] at hrest ⊢
      exact h.again hpc hstill hrest
    · rw [if_pos hreturns] at hrest
      cases hrest

theorem WaitsInTime.step {s t : DhcpSystem × Nat} {l : DhcpLabel} {es : List DhcpEvent} (h : WaitsInTime s)
    (hstep : waitStep s l = some (t, es)) : WaitsInTime t := by
  obtain ⟨hreads, hclock, hone⟩ := waitStep_eq_some.mp hstep
  obtain ⟨u, now⟩ := t
  dsimp only at hclock hone
  subst hclock
  cases l with
  | evaluate expiredAt remainingAt adjustment =>
      obtain ⟨rfl, rfl⟩ := hreads
      obtain ⟨-, hresult⟩ := Option.ite_none_right_eq_some.mp hone
      cases hresult
      refine WaitsInTime.evaluates h.armed adjustment fun timeout hpc => ?_
      split at hpc
      · cases hpc
      · exact (Pc.polling.inj hpc).symm
  | poll startedAt result env currentTime =>
      obtain ⟨rfl, -, -, -⟩ := hreads
      unfold dhcpStep at hone
      dsimp only at hone
      cases hpc : s.1.pc with
      | top =>
          rw [hpc] at hone
          cases hone
      | polling timeout =>
          rw [hpc] at hone
          dsimp only at hone
          cases result with
          | timeout =>
              cases hone
              exact ⟨h.armed, fun _ rest hrest => by cases hrest⟩
          | error =>
              cases hone
              exact ⟨h.armed, fun hbound rest hrest => h.again hpc hbound hrest⟩
          | readable received =>
              dsimp only at hone
              cases hreceived : s.1.client.receiveDhcpMessage received with
              | none =>
                  rw [hreceived] at hone
                  cases hone
                  exact ⟨h.armed, fun hbound rest hrest => h.again hpc hbound hrest⟩
              | some msg =>
                  rw [hreceived] at hone
                  cases hone
                  exact h.handles hpc msg env

/-- A step that a bound client leaves its state with finds T1 expired, and goes on to renew the lease. -/
theorem bound_left {s t : DhcpSystem × Nat} {l : DhcpLabel} {es : List DhcpEvent} (hbound : s.1.client.mState = .bound)
    (hstep : waitStep s l = some (t, es)) (hleft : t.1.client.mState ≠ .bound) :
    s.1.client.mT1.expired s.2 = true ∧ t.1.client.mState = .renewing := by
  obtain ⟨hreads, -, hone⟩ := waitStep_eq_some.mp hstep
  cases dhcpStep_effect hone with
  | waits _ _ same _ => exact absurd (same ▸ hbound) hleft
  | rests _ _ _ _ _ _ result _ => exact absurd (by rw [result]; exact hbound) hleft
  | sends _ _ _ _ _ sent _ _ => exact absurd hbound sent.state.2
  | advances expiredAt remainingAt adjustment label state edge result _ _ =>
      subst label
      obtain ⟨rfl, -⟩ := hreads
      cases edge with
      | renew _ expired => exact ⟨expired, by rw [result]; rfl⟩
      | begin here => cases here.symm.trans hbound
      | rebind here _ => cases here.symm.trans hbound
      | giveUp here _ => rcases here with here | here <;> cases here.symm.trans hbound
  | handles _ _ _ env _ _ _ msg _ result _ _ =>
      have hignored : s.1.client.handleMessage msg env = (s.1.client, [], false) := by
        simp only [DhcpClient.handleMessage, hbound]
      exact absurd (by rw [result, hignored]; exact hbound) hleft

/-- From any client with a timer that has been armed, and under a clock that goes on only in `ppoll`: whatever arrives,
each wait of a bound client ends by the time T1 does and is handed to `ppoll` exactly, and a bound client goes on only
when T1 has expired. -/
theorem bound_waits {s t : DhcpSystem × Nat} {labels : List DhcpLabel} {es : List DhcpEvent} (hpc : s.1.pc = .top)
    (harmed : s.1.client.mT1.Armed) (hrun : exec waitStep s labels = some (t, es))
    (hbound : t.1.client.mState = .bound) :
    (∀ timeout, t.1.pc = .polling timeout → t.2 + timeout ≤ t.1.client.mT1.mExpires ∧
      0 ≤ (pollTimespec timeout).tvNsec ∧ (pollTimespec timeout).tvNsec < 10 ^ 9 ∧
        (pollTimespec timeout).tvSec * 10 ^ 9 + (pollTimespec timeout).tvNsec = timeout * 10 ^ 6) ∧
    (∀ l u fs, waitStep t l = some (u, fs) → u.1.client.mState ≠ .bound →
      t.1.client.mT1.expired t.2 = true ∧ u.1.client.mState = .renewing) := by
  have hstart : WaitsInTime s := ⟨harmed, fun _ timeout h => by cases hpc.symm.trans h⟩
  have hwaits : WaitsInTime t := Reachable.invariant WaitsInTime
    (fun s l t es hI hstep => hI.step hstep) ⟨labels, es, hrun⟩ hstart
  refine ⟨fun timeout htimeout => ?_, fun l u fs hstep hleft => bound_left hbound hstep hleft⟩
  obtain ⟨hlt, hle⟩ := hwaits.inTime hbound timeout htimeout
  exact ⟨hle, pollTimespec_exact hlt⟩

/-- A bound client whose T1 ends at 10 seconds, at the time 0. -/
def boundStart : DhcpSystem × Nat :=
  (⟨{ firstStart.client with mState := .bound, mT1 := .expireSeconds 0 10 }, .top⟩, 0)

/-- After a signal at 4 seconds the client waits for the other 6. -/
theorem bound_waits_rest : ∃ t,
    exec waitStep boundStart
      [.evaluate 0 0 0, .poll 0 .error { allSucceed with t1At := 4000, t2At := 4000 } 4000] = some (t, []) ∧
      t.1.pc = .polling 6000 ∧ t.2 + 6000 ≤ t.1.client.mT1.mExpires ∧
        ∀ l u fs, waitStep t l = some (u, fs) → u.1.client.mState ≠ .bound →
          t.1.client.mT1.expired t.2 = true ∧ u.1.client.mState = .renewing := by
  obtain ⟨t, hrun, hpc, hbound⟩ : ∃ t, exec waitStep boundStart
      [.evaluate 0 0 0, .poll 0 .error { allSucceed with t1At := 4000, t2At := 4000 } 4000] = some (t, []) ∧
        t.1.pc = .polling 6000 ∧ t.1.client.mState = .bound := ⟨_, rfl, rfl, rfl⟩
  obtain ⟨hwaits, hleaves⟩ := bound_waits (s := boundStart) rfl ⟨0, 10, rfl⟩ hrun hbound
  exact ⟨t, hrun, hpc, (hwaits 6000 hpc).1, hleaves⟩

end Trout.Dhcp
