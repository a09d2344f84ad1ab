import Trout.DhcpBackoff
import Trout.DhcpBoundWait
import Trout.DhcpReplies

/-! The pace of the client under a clock that never goes back, in `ppoll` or outside it. The remaining time that goes from
one call of `ppoll` to the next adds up, over signals, errors and messages that mean nothing, so that a message follows
another one only when the wait between them has passed, or when a reply has been accepted. -/

namespace Trout.Dhcp
open CInt Runs

/-! ### What a run shows of its pace -/

inductive PaceEvent where
  /-- A message at a time, and how long the client then means to wait. -/
  | sent (now timeout : Nat)
  /-- A reply has moved the client on. -/
  | answered

def Pc.timeout : Pc → Nat
  | .top => 0
  | .polling timeout => timeout

def DhcpEvent.pace? (now : Nat) (pc : Pc) : DhcpEvent → Option PaceEvent
  | .sent _ => some (.sent now pc.timeout)
  | .moved _ (some _) => some .answered
  | _ => none

/-- The readings of a step in the order of the source. One that the step does not make can stand anywhere between. -/
def DhcpLabel.readings : DhcpLabel → List Nat
  | .evaluate expiredAt remainingAt _ => [expiredAt, remainingAt]
  | .poll startedAt _ env currentTime => [startedAt, env.t1At, env.t2At, currentTime]

/-- A step and the time when it is over, or has sent its message. -/
structure TimedLabel where
  label : DhcpLabel
  endsAt : Nat

/-- The clock does not go back in a step that begins at the time `now` or later. -/
def TimedLabel.Forward (now : Nat) (l : TimedLabel) : Prop := (now :: (l.label.readings ++ [l.endsAt])).IsChain (· ≤ ·)

instance (now : Nat) (l : TimedLabel) : Decidable (l.Forward now) := inferInstanceAs (Decidable (List.IsChain _ _))

/-- The client with its clock, and what a step shows of its pace. -/
def paceStep (s : DhcpSystem × Nat) (l : TimedLabel) : Option ((DhcpSystem × Nat) × List PaceEvent) :=
  if l.Forward s.2 then
    (dhcpStep s.1 l.label).map fun r => ((r.1, l.endsAt), r.2.filterMap (DhcpEvent.pace? l.endsAt r.1.pc))
  else none

/-- `ppoll` sleeps for its timeout when it reports one. -/
def TimedLabel.SleepsFor (timeout : Nat) : TimedLabel → Prop
  | ⟨.poll startedAt .timeout _ _, endsAt⟩ => startedAt + timeout ≤ endsAt
  | _ => True

instance (timeout : Nat) : ∀ l : TimedLabel, Decidable (l.SleepsFor timeout)
  | ⟨.poll startedAt .timeout _ _, endsAt⟩ => inferInstanceAs (Decidable (startedAt + timeout ≤ endsAt))
  | ⟨.poll _ .error _ _, _⟩ => isTrue trivial
  | ⟨.poll _ (.readable _) _ _, _⟩ => isTrue trivial
  | ⟨.evaluate _ _ _, _⟩ => isTrue trivial

/-- The timeouts of `ppoll` are honoured, and the clock has not come to its end. -/
def SleepsInFull (s : DhcpSystem × Nat) (l : TimedLabel) : Prop := l.SleepsFor s.1.pc.timeout ∧ l.endsAt + 2 ^ 32 ≤ 2 ^ 64

instance (s : DhcpSystem × Nat) (l : TimedLabel) : Decidable (SleepsInFull s l) :=
  inferInstanceAs (Decidable (_ ∧ _))

def PaceEvent.unanswered? : PaceEvent → Option (Option (Nat × Nat))
  | .sent now timeout => some (some (now, timeout))
  | .answered => some none

/-- The last message, unless a reply has been accepted since. -/
def unanswered (events : List PaceEvent) : Option (Nat × Nat) := lastSet PaceEvent.unanswered? none events

/-- A message is sent after the wait for the one before, and waits for three seconds at least. -/
def Paced (before : List PaceEvent) (event : PaceEvent) : Prop :=
  ∀ now timeout, event = .sent now timeout →
    3000 ≤ timeout ∧ ∀ earlier waited, unanswered before = some (earlier, waited) → earlier + waited ≤ now

/-! ### Timeouts -/

/-- The timeouts of the states that retransmit. -/
structure Schedules (c : DhcpClient) : Prop where
  fuzz : c.mState.Retransmits → c.mFuzzNextTimeout = true
  base : c.mState.Retransmits → c.mNextTimeout = noTimeout ∨ initialTimeout ≤ c.mNextTimeout ∧ c.mNextTimeout ≤ maxTimeout

theorem schedules_setNextState (c : DhcpClient) (state : State) : Schedules (c.setNextState state) :=
  ⟨fun _ => rfl, fun _ => Or.inl rfl⟩

theorem schedules_of_not {c : DhcpClient} (h : ¬ c.mState.Retransmits) : Schedules c :=
  ⟨fun hretransmits => absurd hretransmits h, fun hretransmits => absurd hretransmits h⟩

/-- After a message the client has a timeout between four and sixty-four seconds. -/
theorem Schedules.sent {c : DhcpClient} (h : Schedules c) (hretransmits : c.mState.Retransmits) (message : Message) :
    let sent := (c.sendNew message).1.increaseTimeout
    sent.mState = c.mState ∧ sent.mFuzzNextTimeout = true ∧ initialTimeout ≤ sent.mNextTimeout ∧
      sent.mNextTimeout ≤ maxTimeout := by
  intro sent
  obtain ⟨hstate, hfuzz⟩ := increaseTimeout_frame (c.sendNew message).1
  have htimeout := increaseTimeout_timeout (c.sendNew message).1
  have hbase : (c.sendNew message).1.mNextTimeout = c.mNextTimeout := rfl
  refine ⟨hstate, hfuzz.trans (h.fuzz hretransmits), ?_⟩
  rw [hbase] at htimeout
  rw [htimeout, initialTimeout, maxTimeout]
  rcases h.base hretransmits with hnone | ⟨hlow, hhigh⟩
  · rw [if_pos hnone]
    omega
  · rw [initialTimeout] at hlow
    rw [if_neg (by rw [noTimeout]; omega)]
    omega

/-- A wait after a message takes between three and sixty-five seconds. -/
theorem sent_timeout {c : DhcpClient} (hfuzz : c.mFuzzNextTimeout = true) (hlow : initialTimeout ≤ c.mNextTimeout)
    (hhigh : c.mNextTimeout ≤ maxTimeout) {adjustment : Int} (low : -timeoutSpan ≤ adjustment)
    (high : adjustment ≤ timeoutSpan) :
    3000 ≤ c.calculateTimeoutMillis adjustment ∧ c.calculateTimeoutMillis adjustment < 2 ^ 32 := by
  have hsum := calculateTimeoutMillis_fuzzed hfuzz hlow hhigh low high
  rw [initialTimeout] at hlow
  rw [maxTimeout] at hhigh
  rw [timeoutSpan] at low high
  omega

theorem calculateTimeoutMillis_lt {c : DhcpClient} (h : c.mNextTimeout < 2 ^ 32) (adjustment : Int) :
    c.calculateTimeoutMillis adjustment < 2 ^ 32 := by
  rw [DhcpClient.calculateTimeoutMillis]
  split
  · exact h
  split
  · decide
  · rw [toUint, uintMod]
    omega

/-- What is left of a wait lasts until the wait is over. -/
theorem pollAgain_lasts {timeout startedAt currentTime : Nat} (hshort : timeout < 2 ^ 32)
    (hlate : currentTime + 2 ^ 32 ≤ 2 ^ 64) (hclock : startedAt ≤ currentTime) :
    (pollAgain timeout startedAt currentTime).timeout < 2 ^ 32 ∧
      startedAt + timeout ≤ currentTime + (pollAgain timeout startedAt currentTime).timeout := by
  have hmod : (startedAt + timeout) % sizeMod = startedAt + timeout := Nat.mod_eq_of_lt (by rw [sizeMod]; omega)
  simp only [pollAgain, hmod]
  by_cases hover : startedAt + timeout ≤ currentTime
  · rw [if_pos hover]
    exact ⟨Nat.two_pow_pos 32, hover⟩
  · have hrest : toUint ((startedAt + timeout - currentTime : Nat) : Int) = startedAt + timeout - currentTime :=
      toUint_natCast (by omega)
    rw [if_neg hover, hrest, Pc.timeout]
    omega

/-! ### Messages received -/

/-- A message moves the client on, or goes by and leaves its timeouts alone. -/
inductive PaceEffect (c : DhcpClient) (r : DhcpClient × List DhcpEvent × Bool) : Prop where
  | answers (state : State) (msg : Message) (calls : List DhcpEvent) (silent : ∀ event ∈ calls, event.isCall = true)
      (events : r.2.1 = calls ++ [.moved state (some msg)]) (schedules : Schedules r.1) (returns : r.2.2 = true)
  | passes (silent : ∀ event ∈ r.2.1, event.isCall = true) (state : r.1.mState = c.mState)
      (schedules : Schedules c → Schedules r.1) (goes : r.2.2 = false)

theorem handleAnswer_pace (c : DhcpClient) (msg : Message) (env : ConfigEnv) : PaceEffect c (c.handleAnswer msg env) := by
  have hconfig := configureDhcp_effect c msg env
  obtain ⟨info, t1, t2, network, hframe⟩ := configureDhcp_frame c msg env
  simp only [DhcpClient.handleAnswer]
  generalize c.configureDhcp msg env = configured at hconfig hframe ⊢
  by_cases hack : msg.type = dhcpAck
  · rw [if_pos hack]
    by_cases hconfigured : configured.2.2 = true
    · rw [if_pos hconfigured]
      exact .answers .bound msg _ hconfig.2.calls rfl (schedules_setNextState _ _) rfl
    · rw [if_neg hconfigured]
      refine .passes hconfig.2.calls hconfig.1.state (fun h => ?_) rfl
      dsimp only
      rw [hframe]
      exact ⟨h.fuzz, h.base⟩
  · rw [if_neg hack]
    by_cases hnak : msg.type = dhcpNak
    · rw [if_pos hnak]
      exact .answers .init msg _ (haltNetwork_calls c env) rfl (schedules_setNextState _ _) rfl
    · rw [if_neg hnak]
      exact .passes (fun _ h => absurd h List.not_mem_nil) rfl id rfl

theorem handleMessage_pace (c : DhcpClient) (msg : Message) (env : ConfigEnv) :
    PaceEffect c (c.handleMessage msg env) := by
  have hignored : PaceEffect c (c, [], false) := .passes (fun _ h => absurd h List.not_mem_nil) rfl id rfl
  unfold DhcpClient.handleMessage
  cases c.mState with
  | init => exact hignored
  | selecting =>
      dsimp only
      by_cases hoffer : msg.type = dhcpOffer
      · rw [if_pos hoffer]
        exact .answers .requesting msg [] (fun _ h => absurd h List.not_mem_nil) rfl (schedules_setNextState _ _) rfl
      · rw [if_neg hoffer]
        exact hignored
  | requesting => exact handleAnswer_pace c msg env
  | bound => exact hignored
  | renewing => exact handleAnswer_pace c msg env
  | rebinding => exact handleAnswer_pace c msg env

theorem calls_pace {es : List DhcpEvent} (h : ∀ e ∈ es, e.isCall = true) (now : Nat) (pc : Pc) :
    es.filterMap (DhcpEvent.pace? now pc) = [] := by
  rw [List.filterMap_eq_nil_iff]
  intro e he
  have hcall := h e he
  cases e with
  | link up => rfl
  | address address => rfl
  | sent message => cases hcall
  | moved state cause => cases hcall

/-! ### The invariant -/

/-- The wait of the last message has not been cut short: what is left of it is still ahead, or it is over. -/
structure KeepsPace (h : List PaceEvent) (s : DhcpSystem × Nat) : Prop where
  schedules : Schedules s.1.client
  short : s.1.pc.timeout < 2 ^ 32
  ahead : ∀ earlier waited, unanswered h = some (earlier, waited) → earlier + waited ≤ s.2 + s.1.pc.timeout
  bound : s.1.client.mState = .bound → unanswered h = none

theorem unanswered_answered (h : List PaceEvent) : unanswered (h ++ [.answered]) = none := by
  rw [unanswered, lastSet_append]
  rfl

theorem unanswered_sent (h : List PaceEvent) (now timeout : Nat) :
    unanswered (h ++ [.sent now timeout]) = some (now, timeout) := by
  rw [unanswered, lastSet_append]
  rfl

/-- A wait that goes on or ends. -/
theorem KeepsPace.waits {h : List PaceEvent} {s : DhcpSystem × Nat} (hpace : KeepsPace h s) {timeout startedAt : Nat}
    (hpolling : s.1.pc = .polling timeout) (hstarted : s.2 ≤ startedAt) {c : DhcpClient}
    (hstate : c.mState = s.1.client.mState) (hschedules : Schedules c) {pc : Pc} {now : Nat}
    (hleft : pc.timeout < 2 ^ 32 ∧ startedAt + timeout ≤ now + pc.timeout) : KeepsPace h (⟨c, pc⟩, now) := by
  refine ⟨hschedules, hleft.1, fun earlier waited hlast => ?_, fun hbound => hpace.bound (hstate.symm.trans hbound)⟩
  have hends := hpace.ahead earlier waited hlast
  rw [hpolling] at hends
  calc earlier + waited ≤ s.2 + timeout := hends
    _ ≤ startedAt + timeout := Nat.add_le_add_right hstarted timeout
    _ ≤ now + pc.timeout := hleft.2

/-- A client without a timeout evaluates its new state at once. -/
theorem KeepsPace.moves {h : List PaceEvent} {s : DhcpSystem × Nat} (hpace : KeepsPace h s) (htop : s.1.pc = .top)
    {c : DhcpClient} (hstate : c.mState ≠ .bound) (hschedules : Schedules c) {now : Nat} (hforward : s.2 ≤ now) :
    KeepsPace h (⟨c, .top⟩, now) := by
  have hahead := hpace.ahead
  rw [htop] at hahead
  refine ⟨hschedules, Nat.two_pow_pos 32, fun earlier waited hlast => ?_, fun hbound => absurd hbound hstate⟩
  exact (hahead earlier waited hlast).trans hforward

/-- What is left of T1 is narrowed to 32 bits. -/
theorem evaluate_rest {c : DhcpClient} {expiredAt remainingAt : Nat}
    (hbound : (c.evaluate expiredAt remainingAt).1.mState = .bound) :
    (c.evaluate expiredAt remainingAt).1.mNextTimeout < 2 ^ 32 := by
  rw [(evaluate_bound hbound).2.2]
  exact (toUint_le _).2

theorem Sends.retransmits {c : DhcpClient} {message : Message} (h : Sends c message) : c.mState.Retransmits := by
  cases h with
  | discover here => rw [here]; trivial
  | request here => rcases here with here | here <;> rw [here] <;> trivial
  | rebind here _ => rw [here]; trivial

/-- An evaluation moves on, waits for the end of T1, or sends a message after the wait for the one before. -/
theorem KeepsPace.evaluates {h : List PaceEvent} {s : DhcpSystem × Nat} (hpace : KeepsPace h s) (htop : s.1.pc = .top)
    (expiredAt remainingAt : Nat) {adjustment : Int} (low : -timeoutSpan ≤ adjustment) (high : adjustment ≤ timeoutSpan)
    {now : Nat} (hforward : s.2 ≤ now) :
    let r := s.1.client.evaluate expiredAt remainingAt
    let pc := if r.1.mNextTimeout = noTimeout then Pc.top else .polling (r.1.calculateTimeoutMillis adjustment)
    KeepsPace (h ++ r.2.filterMap (DhcpEvent.pace? now pc)) (⟨r.1, pc⟩, now) ∧
      Throughout (fun before => Paced (h ++ before)) (r.2.filterMap (DhcpEvent.pace? now pc)) := by
  have hahead := hpace.ahead
  rw [htop] at hahead
  have heffect := evaluate_effect s.1.client expiredAt remainingAt
  have hrest := @evaluate_rest s.1.client expiredAt remainingAt
  generalize s.1.client.evaluate expiredAt remainingAt = r at heffect hrest
  cases heffect with
  | advances state edge =>
      refine ⟨?_, throughout_nil _⟩
      have hnil : h ++ List.filterMap (DhcpEvent.pace? now .top) [.moved state none] = h := List.append_nil h
      change KeepsPace (h ++ List.filterMap (DhcpEvent.pace? now .top) [.moved state none])
        (⟨s.1.client.setNextState state, .top⟩, now)
      rw [hnil]
      exact hpace.moves htop edge.ne_bound.1 (schedules_setNextState _ _) hforward
  | rests here timeout =>
      intro r pc
      have hnone : unanswered h = none := hpace.bound here
      have hshort : r.1.mNextTimeout < 2 ^ 32 := hrest here
      refine ⟨⟨schedules_of_not (by rw [here]; exact id), ?_, fun earlier waited hlast => ?_, fun _ => ?_⟩, throughout_nil _⟩
      · by_cases hzero : r.1.mNextTimeout = noTimeout
        · rw [show pc = .top from if_pos hzero]
          exact Nat.two_pow_pos 32
        · rw [show pc = .polling _ from if_neg hzero]
          exact calculateTimeoutMillis_lt hshort adjustment
      · rw [show h ++ List.filterMap (DhcpEvent.pace? now pc) [] = h from List.append_nil h, hnone] at hlast
        cases hlast
      · rw [show h ++ List.filterMap (DhcpEvent.pace? now pc) [] = h from List.append_nil h, hnone]
  | sends message sent =>
      intro r pc
      obtain ⟨hstate, hfuzz, hlow, hhigh⟩ := hpace.schedules.sent sent.retransmits message
      obtain ⟨hlong, hshort⟩ := sent_timeout hfuzz hlow hhigh low high
      have hpc : pc = .polling (r.1.calculateTimeoutMillis adjustment) := if_neg (increaseTimeout_ne _)
      have hevents : r.2.filterMap (DhcpEvent.pace? now pc) = [.sent now (r.1.calculateTimeoutMillis adjustment)] := by
        rw [hpc]
        rfl
      rw [hevents, hpc]
      refine ⟨⟨⟨fun _ => hfuzz, fun _ => Or.inr ⟨hlow, hhigh⟩⟩, hshort, fun earlier waited hlast => ?_, fun hbound => ?_⟩, ?_⟩
      · rw [unanswered_sent] at hlast
        cases hlast
        exact le_refl _
      · rw [show r.1.mState = s.1.client.mState from hstate] at hbound
        exact absurd hbound sent.state.2
      · refine throughout_singleton fun sentAt timeout heq => ?_
        cases heq
        rw [List.append_nil]
        exact ⟨hlong, fun earlier waited hlast => (hahead earlier waited hlast).trans hforward⟩

/-- A message that arrives moves the client on, which needs no wait, or the wait goes on. -/
theorem KeepsPace.handles {h : List PaceEvent} {s : DhcpSystem × Nat} (hpace : KeepsPace h s)
    {timeout startedAt currentTime now : Nat} (hpolling : s.1.pc = .polling timeout) (hstarted : s.2 ≤ startedAt)
    (hleft : (pollAgain timeout startedAt currentTime).timeout < 2 ^ 32 ∧
      startedAt + timeout ≤ now + (pollAgain timeout startedAt currentTime).timeout) (msg : Message) (env : ConfigEnv) :
    let r := s.1.client.handleMessage msg env
    let pc := if r.2.2 = true then Pc.top else pollAgain timeout startedAt currentTime
    KeepsPace (h ++ r.2.1.filterMap (DhcpEvent.pace? now pc)) (⟨r.1, pc⟩, now) ∧
      Throughout (fun before => Paced (h ++ before)) (r.2.1.filterMap (DhcpEvent.pace? now pc)) := by
  have heffect := handleMessage_pace s.1.client msg env
  generalize s.1.client.handleMessage msg env = r at heffect
  intro r' pc
  cases heffect with
  | answers state msg calls silent events schedules returns =>
      have hpc : pc = .top := if_pos returns
      have hanswered : r.2.1.filterMap (DhcpEvent.pace? now pc) = [.answered] := by
        rw [events, List.filterMap_append, calls_pace silent]
        rfl
      rw [hanswered, hpc]
      have hnone := unanswered_answered h
      refine ⟨⟨schedules, Nat.two_pow_pos 32, fun earlier waited hlast => ?_, fun _ => hnone⟩, ?_⟩
      · rw [hnone] at hlast
        cases hlast
      · exact throughout_singleton fun sentAt timeout heq => by cases heq
  | passes silent state schedules goes =>
      have hpc : pc = pollAgain timeout startedAt currentTime := if_neg (by rw [goes]; exact Bool.false_ne_true)
      rw [calls_pace silent, List.append_nil, hpc]
      exact ⟨hpace.waits hpolling hstarted state (schedules hpace.schedules) hleft, throughout_nil _⟩

theorem keepsPace_step {h : List PaceEvent} {s t : DhcpSystem × Nat} {l : TimedLabel} {es : List PaceEvent}
    (hpace : KeepsPace h s) (hsleeps : SleepsInFull s l) (hstep : paceStep s l = some (t, es)) :
    KeepsPace (h ++ es) t ∧ Throughout (fun before => Paced (h ++ before)) es := by
  obtain ⟨hforward, hmap⟩ := Option.ite_none_right_eq_some.mp hstep
  obtain ⟨⟨u, fs⟩, hone, hpair⟩ := Option.map_eq_some_iff.mp hmap
  obtain ⟨rfl, rfl⟩ := Prod.mk.inj hpair
  obtain ⟨hsleeps, hlate⟩ := hsleeps
  obtain ⟨label, now⟩ := l
  dsimp only at hone hlate ⊢
  cases label with
  | evaluate expiredAt remainingAt adjustment =>
      have hnow : s.2 ≤ now := hforward.rel_cons (by simp [DhcpLabel.readings])
      obtain ⟨⟨htop, low, high⟩, hresult⟩ := Option.ite_none_right_eq_some.mp hone
      cases hresult
      exact hpace.evaluates htop expiredAt remainingAt low high hnow
  | poll startedAt result env currentTime =>
      have hstarted : s.2 ≤ startedAt := hforward.rel_cons (by simp [DhcpLabel.readings])
      have hread : startedAt ≤ currentTime := hforward.tail.rel_cons (by simp)
      have hnow : currentTime ≤ now := hforward.tail.tail.tail.tail.rel_cons (by simp)
      unfold dhcpStep at hone
      dsimp only at hone
      cases hpolling : s.1.pc with
      | top =>
          rw [hpolling] at hone
          cases hone
      | polling timeout =>
          have hshort : timeout < 2 ^ 32 := by
            have hbound := hpace.short
            rwa [hpolling] at hbound
          obtain ⟨hless, hends⟩ := pollAgain_lasts hshort (by omega) hread
          have hlasts : startedAt + timeout ≤ now + (pollAgain timeout startedAt currentTime).timeout :=
            hends.trans (Nat.add_le_add_right hnow _)
          rw [hpolling] at hone
          dsimp only at hone
          cases result with
          | timeout =>
              cases hone
              have hover : startedAt + s.1.pc.timeout ≤ now := hsleeps
              rw [hpolling] at hover
              rw [List.filterMap_nil, List.append_nil]
              exact ⟨hpace.waits hpolling hstarted rfl hpace.schedules ⟨Nat.two_pow_pos 32, hover⟩, throughout_nil _⟩
          | error =>
              cases hone
              rw [List.filterMap_nil, List.append_nil]
              exact ⟨hpace.waits hpolling hstarted rfl hpace.schedules ⟨hless, hlasts⟩, throughout_nil _⟩
          | readable received =>
              dsimp only at hone
              cases hreceived : s.1.client.receiveDhcpMessage received with
              | none =>
                  rw [hreceived] at hone
                  cases hone
                  rw [List.filterMap_nil, List.append_nil]
                  exact ⟨hpace.waits hpolling hstarted rfl hpace.schedules ⟨hless, hlasts⟩, throughout_nil _⟩
              | some msg =>
                  rw [hreceived] at hone
                  cases hone
                  exact hpace.handles hpolling hstarted ⟨hless, hlasts⟩ msg env

/-- However signals, errors and datagrams interrupt the waits: each message but the first comes after a reply that the
client has accepted, or when the wait that followed the message before has passed, three seconds at least. -/
theorem messages_paced {options : UInt32} {network : Network} {info : DhcpInfo} {requestAddress serverAddress : UInt32}
    {now : Nat} {labels : List TimedLabel} {u : DhcpSystem × Nat} {events : List PaceEvent}
    (hguard : Guarded paceStep SleepsInFull (.start options network info requestAddress serverAddress, now) labels)
    (hrun : exec paceStep (.start options network info requestAddress serverAddress, now) labels = some (u, events)) :
    Throughout Paced events := by
  have hstart : KeepsPace [] (.start options network info requestAddress serverAddress, now) :=
    ⟨schedules_of_not id, Nat.two_pow_pos 32, fun _ _ h => (nomatch h), fun _ => rfl⟩
  exact (exec_throughout KeepsPace Paced (fun _ _ _ _ _ hpace hsleeps hstep => keepsPace_step hpace hsleeps hstep)
    hstart hguard hrun).2

/-- A discovery that a signal interrupts after a second, by a clock that also goes on outside `ppoll`. -/
def interruptedLabels : List TimedLabel :=
  [⟨.evaluate 0 0 0, 1⟩, ⟨.evaluate 1 1 0, 3⟩, ⟨.poll 5 .error { allSucceed with t1At := 1005, t2At := 1005 } 1006, 1007⟩,
    ⟨.poll 1010 .timeout { allSucceed with t1At := 4010, t2At := 4010 } 4010, 4011⟩, ⟨.evaluate 4012 4012 0, 4013⟩]

theorem messages_paced_interrupted : ∃ u events, exec paceStep (firstStart, 0) interruptedLabels = some (u, events) ∧
    events = [.sent 3 4000, .sent 4013 8000] ∧ Throughout Paced events := by
  obtain ⟨u, events, hrun, hevents⟩ : ∃ u events, exec paceStep (firstStart, 0) interruptedLabels = some (u, events) ∧
      events = [.sent 3 4000, .sent 4013 8000] := ⟨_, _, rfl, rfl⟩
  have hguard : Guarded paceStep SleepsInFull (firstStart, 0) interruptedLabels := by decide +kernel
  exact ⟨u, events, hrun, hevents, messages_paced hguard hrun⟩

end Trout.Dhcp
