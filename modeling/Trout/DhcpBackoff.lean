import Trout.DhcpSteps

/-! The waits of the DHCP client. A transition clears the timeout; in the states that retransmit it is doubled
before every wait, from four seconds to sixty-four, and it counts the requests that give up. -/

namespace Trout.Dhcp
open CInt Runs

/-! ### What a run shows of its waits -/

inductive BackoffEvent where
  | entered (state : State)
  | sent
  /-- `waitAndReceive` begins to wait: the base timeout, and the one it has calculated. -/
  | waits (state : State) (base timeout : Nat)

def DhcpEvent.backoff? : DhcpEvent → Option BackoffEvent
  | .sent _ => some .sent
  | .moved state _ => some (.entered state)
  | _ => none

/-- A wait begins when an evaluation ends before `ppoll`. -/
def waitEvents : DhcpLabel → DhcpSystem → List BackoffEvent
  | .evaluate .., ⟨client, .polling timeout⟩ => [.waits client.mState client.mNextTimeout timeout]
  | _, _ => []

/-- A step of the client, and what it shows of its waits. -/
def backoffStep (s : DhcpSystem) (l : DhcpLabel) : Option (DhcpSystem × List BackoffEvent) :=
  (dhcpStep s l).map fun r => (r.1, r.2.filterMap DhcpEvent.backoff? ++ waitEvents l r.1)

def BackoffEvent.entered? : BackoffEvent → Option State
  | .entered state => some state
  | _ => none

def BackoffEvent.isSent : BackoffEvent → Bool
  | .sent => true
  | _ => false

def BackoffEvent.isWait : BackoffEvent → Bool
  | .waits .. => true
  | _ => false

/-- The state that was entered last, and what has happened since. -/
def stayAfter (events : List BackoffEvent) : State := lastSet BackoffEvent.entered? .init events

def sendsInStay : List BackoffEvent → Nat := countSince (fun e => e.entered?.isSome) BackoffEvent.isSent

def waitsInStay : List BackoffEvent → Nat := countSince (fun e => e.entered?.isSome) BackoffEvent.isWait

/-- The states that send again until they are answered. -/
def State.Retransmits : State → Prop
  | .init => False
  | .bound => False
  | _ => True

/-- The states that give up after some requests. -/
def State.GivesUp (state : State) : Prop := state = .requesting ∨ state = .rebinding

/-- The base timeout after some retransmissions. -/
def scheduled : Nat → Nat
  | 0 => noTimeout
  | n + 1 => min (initialTimeout * 2 ^ n) maxTimeout

/-! ### Steps -/

/-- What a step does to the timeout and shows of it. -/
inductive BackoffEffect (s : DhcpSystem) (t : DhcpSystem) : List BackoffEvent → Prop where
  | silent (state : t.client.mState = s.client.mState) (timeout : t.client.mNextTimeout = s.client.mNextTimeout)
      (fuzz : t.client.mFuzzNextTimeout = s.client.mFuzzNextTimeout) : BackoffEffect s t []
  | rests (here : s.client.mState = .bound) (state : t.client.mState = .bound) (es : List BackoffEvent)
      (events : ∀ e ∈ es, ∃ timeout, e = .waits .bound timeout timeout) : BackoffEffect s t es
  | sends (here : s.client.mState.Retransmits) (left : s.client.mState.GivesUp → s.client.mNextTimeout < maxTimeout)
      (state : t.client.mState = s.client.mState)
      (timeout : t.client.mNextTimeout = s.client.increaseTimeout.mNextTimeout)
      (fuzz : t.client.mFuzzNextTimeout = s.client.mFuzzNextTimeout) (adjustment : Int)
      (low : -timeoutSpan ≤ adjustment) (high : adjustment ≤ timeoutSpan) :
      BackoffEffect s t [.sent, .waits s.client.mState t.client.mNextTimeout (t.client.calculateTimeoutMillis adjustment)]
  | enters (state : State) (here : t.client.mState = state) (timeout : t.client.mNextTimeout = noTimeout)
      (fuzz : t.client.mFuzzNextTimeout = true) : BackoffEffect s t [.entered state]

/-- The timeout is doubled up to the maximum. -/
theorem increaseTimeout_timeout (c : DhcpClient) : c.increaseTimeout.mNextTimeout =
    if c.mNextTimeout = noTimeout then initialTimeout else min (2 * c.mNextTimeout) maxTimeout := by
  rw [DhcpClient.increaseTimeout]
  split
  · rfl
  · show (if (if c.mNextTimeout < maxTimeout then toUint (c.mNextTimeout * 2 : Nat) else c.mNextTimeout) > maxTimeout
      then maxTimeout else _) = _
    by_cases hsmall : c.mNextTimeout < maxTimeout
    · rw [if_pos hsmall, toUint_natCast (by rw [maxTimeout] at hsmall; omega)]
      split_ifs <;> omega
    · rw [if_neg hsmall]
      split_ifs <;> omega

theorem increaseTimeout_ne (c : DhcpClient) : c.increaseTimeout.mNextTimeout ≠ noTimeout := by
  rw [increaseTimeout_timeout]
  split
  · decide
  · rename_i hne
    rw [noTimeout] at hne ⊢
    rw [maxTimeout]
    omega

theorem increaseTimeout_frame (c : DhcpClient) : c.increaseTimeout.mState = c.mState ∧
    c.increaseTimeout.mFuzzNextTimeout = c.mFuzzNextTimeout := by
  rw [DhcpClient.increaseTimeout]
  split <;> exact ⟨rfl, rfl⟩

/-- The system between an evaluation and `ppoll`. -/
def afterEvaluate (c : DhcpClient) (adjustment : Int) : DhcpSystem :=
  ⟨c, if c.mNextTimeout = noTimeout then .top else .polling (c.calculateTimeoutMillis adjustment)⟩

theorem moveTo_backoff {s : DhcpSystem} (state : State) (adjustment : Int) {expiredAt remainingAt : Nat} :
    BackoffEffect s (afterEvaluate (s.client.moveTo state).1 adjustment)
      ((s.client.moveTo state).2.filterMap DhcpEvent.backoff? ++
        waitEvents (.evaluate expiredAt remainingAt adjustment) (afterEvaluate (s.client.moveTo state).1 adjustment)) :=
  .enters state rfl rfl rfl

theorem awaitReply_backoff {s : DhcpSystem} (message : Message) {adjustment : Int} {expiredAt remainingAt : Nat}
    (here : s.client.mState.Retransmits) (left : s.client.mState.GivesUp → s.client.mNextTimeout < maxTimeout)
    (low : -timeoutSpan ≤ adjustment) (high : adjustment ≤ timeoutSpan) :
    BackoffEffect s (afterEvaluate (DhcpClient.awaitReply (s.client.sendNew message)).1 adjustment)
      ((DhcpClient.awaitReply (s.client.sendNew message)).2.filterMap DhcpEvent.backoff? ++
        waitEvents (.evaluate expiredAt remainingAt adjustment)
          (afterEvaluate (DhcpClient.awaitReply (s.client.sendNew message)).1 adjustment)) := by
  have hne := increaseTimeout_ne (s.client.sendNew message).1
  obtain ⟨hstate, hfuzz⟩ := increaseTimeout_frame (s.client.sendNew message).1
  have htimeout : (s.client.sendNew message).1.increaseTimeout.mNextTimeout = s.client.increaseTimeout.mNextTimeout := by
    rw [DhcpClient.increaseTimeout, DhcpClient.increaseTimeout]
    show (if s.client.mNextTimeout = noTimeout then _ else _ : DhcpClient).mNextTimeout = _
    split <;> rfl
  have hsends := @BackoffEffect.sends s (afterEvaluate (s.client.sendNew message).1.increaseTimeout adjustment) here left hstate
    htimeout hfuzz adjustment low high
  rw [DhcpClient.awaitReply]
  rw [afterEvaluate, if_neg hne] at hsends ⊢
  show BackoffEffect s _ (.sent :: [.waits (s.client.sendNew message).1.increaseTimeout.mState _ _])
  rw [hstate]
  exact hsends

/-- A bound client waits for what is left of T1, without fuzz. -/
theorem rests_backoff {s : DhcpSystem} {c : DhcpClient} {adjustment : Int} {expiredAt remainingAt : Nat}
    (here : s.client.mState = .bound) (state : c.mState = .bound) (fuzz : c.mFuzzNextTimeout = false) :
    BackoffEffect s (afterEvaluate c adjustment)
      (waitEvents (.evaluate expiredAt remainingAt adjustment) (afterEvaluate c adjustment)) := by
  have htimeout : c.calculateTimeoutMillis adjustment = c.mNextTimeout := by
    rw [DhcpClient.calculateTimeoutMillis, if_pos (by simp [fuzz])]
  refine .rests here state _ fun e he => ?_
  rw [afterEvaluate, htimeout] at he
  split at he
  · cases he
  · obtain rfl := List.mem_singleton.mp he
    exact ⟨c.mNextTimeout, by rw [state]⟩

theorem evaluate_backoff (s : DhcpSystem) (expiredAt remainingAt : Nat) {adjustment : Int}
    (low : -timeoutSpan ≤ adjustment) (high : adjustment ≤ timeoutSpan) :
    BackoffEffect s (afterEvaluate (s.client.evaluate expiredAt remainingAt).1 adjustment)
      ((s.client.evaluate expiredAt remainingAt).2.filterMap DhcpEvent.backoff? ++
        waitEvents (.evaluate expiredAt remainingAt adjustment)
          (afterEvaluate (s.client.evaluate expiredAt remainingAt).1 adjustment)) := by
  unfold DhcpClient.evaluate
  split <;> rename_i here
  · exact moveTo_backoff .selecting adjustment
  · refine awaitReply_backoff _ (by rw [here]; trivial) (fun hgives => ?_) low high
    rcases hgives with h | h <;> rw [here] at h <;> cases h
  · by_cases hexhausted : s.client.mNextTimeout ≥ maxTimeout
    · rw [if_pos hexhausted]
      exact moveTo_backoff .init adjustment
    · rw [if_neg hexhausted]
      exact awaitReply_backoff _ (by rw [here]; trivial) (fun _ => Nat.lt_of_not_le hexhausted) low high
  · by_cases hexpired : s.client.mT1.expired expiredAt
    · rw [if_pos hexpired]
      exact moveTo_backoff .renewing adjustment
    · rw [if_neg hexpired]
      exact rests_backoff here here rfl
  · by_cases hexpired : s.client.mT2.expired expiredAt
    · rw [if_pos hexpired]
      exact moveTo_backoff .rebinding adjustment
    · rw [if_neg hexpired]
      refine awaitReply_backoff _ (by rw [here]; trivial) (fun hgives => ?_) low high
      rcases hgives with h | h <;> rw [here] at h <;> cases h
  · by_cases hexhausted : s.client.mNextTimeout ≥ maxTimeout
    · rw [if_pos hexhausted]
      exact moveTo_backoff .init adjustment
    · rw [if_neg hexhausted]
      exact awaitReply_backoff _ (by rw [here]; trivial) (fun _ => Nat.lt_of_not_le hexhausted) low high

theorem calls_backoff {es : List DhcpEvent} (h : ∀ e ∈ es, e.isCall = true) : es.filterMap DhcpEvent.backoff? = [] := by
  rw [List.filterMap_eq_nil_iff]
  intro e he
  have hcall := h e he
  cases e with
  | link up => rfl
  | address address => rfl
  | sent message => cases hcall
  | moved state cause => cases hcall

/-- A message enters a state, or leaves the timeout alone. -/
theorem handleMessage_backoff {s t : DhcpSystem} {msg : Message} {env : ConfigEnv}
    (result : t.client = (s.client.handleMessage msg env).1) :
    BackoffEffect s t ((s.client.handleMessage msg env).2.1.filterMap DhcpEvent.backoff?) := by
  have hconfig := configureDhcp_effect s.client msg env
  cases handleMessage_effect s.client msg env with
  | ignores same silent =>
      rw [silent]
      rw [← result] at same
      exact .silent (by rw [same]) (by rw [same]) (by rw [same])
  | chooses here offer chosen event returns =>
      rw [event]
      rw [← result] at chosen
      exact .enters .requesting (by rw [chosen]; rfl) (by rw [chosen]; rfl) (by rw [chosen]; rfl)
  | binds here ack configured bound event =>
      rw [event, List.filterMap_append, calls_backoff hconfig.2.calls]
      rw [← result] at bound
      exact .enters .bound (by rw [bound]; rfl) (by rw [bound]; rfl) (by rw [bound]; rfl)
  | refuses here ack failed refused event =>
      rw [event, calls_backoff hconfig.2.calls]
      rw [← result] at refused
      obtain ⟨info, t1, t2, network, hframe⟩ := configureDhcp_frame s.client msg env
      rw [hframe] at refused
      exact .silent (by rw [refused]; rfl) (by rw [refused]; rfl) (by rw [refused]; rfl)
  | halts here nak halted event returns =>
      rw [event, List.filterMap_append, calls_backoff (haltNetwork_calls s.client env)]
      rw [← result] at halted
      exact .enters .init (by rw [halted]; rfl) (by rw [halted]; rfl) (by rw [halted]; rfl)

theorem backoffStep_effect {s t : DhcpSystem} {l : DhcpLabel} {es : List BackoffEvent}
    (hstep : backoffStep s l = some (t, es)) : BackoffEffect s t es := by
  rw [backoffStep, Option.map_eq_some_iff] at hstep
  obtain ⟨⟨t', es'⟩, hdhcp, hpair⟩ := hstep
  cases hpair
  cases l with
  | evaluate expiredAt remainingAt adjustment =>
      rw [dhcpStep] at hdhcp
      split at hdhcp
      · rename_i henabled
        cases hdhcp
        exact evaluate_backoff s expiredAt remainingAt henabled.2.1 henabled.2.2
      · cases hdhcp
  | poll startedAt result env currentTime =>
      show BackoffEffect s _ (List.filterMap DhcpEvent.backoff? es' ++ [])
      rw [List.append_nil]
      cases dhcpStep_effect hdhcp with
      | waits timeout polled same silent =>
          rw [silent]
          exact .silent (by rw [same]) (by rw [same]) (by rw [same])
      | rests _ _ _ label => cases label
      | sends _ _ _ label => cases label
      | advances _ _ _ label => cases label
      | handles _ _ _ env' _ _ _ msg _ result event _ =>
          rw [event]
          exact handleMessage_backoff result

/-! ### The schedule -/

theorem scheduled_succ (n : Nat) :
    (if scheduled n = noTimeout then initialTimeout else min (2 * scheduled n) maxTimeout) = scheduled (n + 1) := by
  cases n with
  | zero => rfl
  | succ n =>
      have hpow : 1 ≤ 2 ^ n := Nat.one_le_two_pow
      have hbase : scheduled (n + 1) = min (4000 * 2 ^ n) 64000 := rfl
      have hnext : scheduled (n + 1 + 1) = min (4000 * (2 * 2 ^ n)) 64000 := by
        rw [← Nat.pow_succ']
        rfl
      rw [if_neg (by rw [hbase, noTimeout]; omega), hbase, hnext, maxTimeout]
      omega

/-- Five doublings reach the timeout at which a client gives up. -/
theorem lt_five_of_scheduled {n : Nat} (h : scheduled n < maxTimeout) : n < 5 := by
  by_contra hmany
  obtain ⟨k, rfl⟩ := Nat.exists_eq_add_of_le (Nat.le_of_not_lt hmany)
  have hpow : 2 ^ 4 ≤ 2 ^ (4 + k) := Nat.pow_le_pow_right (by decide) (by omega)
  rw [show 5 + k = 4 + k + 1 by omega, scheduled, initialTimeout, maxTimeout] at h
  omega

/-- What the waits so far say about the timeout. -/
structure BackoffInv (h : List BackoffEvent) (s : DhcpSystem) : Prop where
  state : stayAfter h = s.client.mState
  base : s.client.mState.Retransmits → s.client.mNextTimeout = scheduled (sendsInStay h)
  fuzz : s.client.mState.Retransmits → s.client.mFuzzNextTimeout = true
  count : s.client.mState.Retransmits → waitsInStay h = sendsInStay h
  tries : s.client.mState.GivesUp → sendsInStay h ≤ 5

/-- The wait of a state that retransmits is the next of its schedule, give or take a second. -/
def OnSchedule (before : List BackoffEvent) (event : BackoffEvent) : Prop :=
  ∀ state base timeout, event = .waits state base timeout → state.Retransmits →
    base = min (4000 * 2 ^ waitsInStay before) 64000 ∧
      ∃ adjustment : Int, -1000 ≤ adjustment ∧ adjustment ≤ 1000 ∧ (timeout : Int) = base + adjustment

theorem State.GivesUp.retransmits {state : State} (h : state.GivesUp) : state.Retransmits := by
  rcases h with rfl | rfl <;> trivial

theorem stayAfter_entered (h : List BackoffEvent) (state : State) : stayAfter (h ++ [.entered state]) = state := by
  rw [stayAfter, lastSet_append]
  rfl

theorem sendsInStay_entered (h : List BackoffEvent) (state : State) : sendsInStay (h ++ [.entered state]) = 0 := by
  rw [sendsInStay, countSince_snoc]
  rfl

theorem waitsInStay_entered (h : List BackoffEvent) (state : State) : waitsInStay (h ++ [.entered state]) = 0 := by
  rw [waitsInStay, countSince_snoc]
  rfl

theorem sendsInStay_sent (h : List BackoffEvent) (state : State) (base timeout : Nat) :
    sendsInStay (h ++ [.sent, .waits state base timeout]) = sendsInStay h + 1 := by
  rw [show h ++ [BackoffEvent.sent, .waits state base timeout] = h ++ [.sent] ++ [.waits state base timeout] by simp,
    sendsInStay, countSince_snoc, countSince_snoc]
  rfl

theorem waitsInStay_sent (h : List BackoffEvent) (state : State) (base timeout : Nat) :
    waitsInStay (h ++ [.sent]) = waitsInStay h ∧ waitsInStay (h ++ [.sent, .waits state base timeout]) = waitsInStay h + 1 := by
  have hsent : waitsInStay (h ++ [.sent]) = waitsInStay h := by
    rw [waitsInStay, countSince_snoc]
    rfl
  refine ⟨hsent, ?_⟩
  rw [show h ++ [BackoffEvent.sent, .waits state base timeout] = h ++ [.sent] ++ [.waits state base timeout] by simp,
    ← hsent, waitsInStay, countSince_snoc]
  rfl

theorem stayAfter_quiet (h : List BackoffEvent) {es : List BackoffEvent} (hquiet : ∀ e ∈ es, e.entered? = none) :
    stayAfter (h ++ es) = stayAfter h := by
  rw [stayAfter, lastSet_append]
  exact lastSet_of_silent hquiet _

/-- The fuzz moves a timeout of four seconds and more by a second at most. -/
theorem calculateTimeoutMillis_fuzzed {c : DhcpClient} (hfuzz : c.mFuzzNextTimeout = true) (hlow : initialTimeout ≤ c.mNextTimeout)
    (hhigh : c.mNextTimeout ≤ maxTimeout) {adjustment : Int} (low : -timeoutSpan ≤ adjustment) (high : adjustment ≤ timeoutSpan) :
    (c.calculateTimeoutMillis adjustment : Int) = c.mNextTimeout + adjustment := by
  rw [initialTimeout] at hlow
  rw [maxTimeout] at hhigh
  rw [timeoutSpan] at low high
  have hneg : ¬ (adjustment < 0 ∧ toUint (-adjustment) > c.mNextTimeout) := by
    rintro ⟨hlt, hgt⟩
    rw [toUint, uintMod] at hgt
    omega
  rw [DhcpClient.calculateTimeoutMillis, if_neg (by simp [hfuzz]), if_neg hneg, toUint, uintMod]
  omega

/-- The wait that follows a request is on schedule. -/
theorem onSchedule_sent {h : List BackoffEvent} {t : DhcpSystem} {state : State} {adjustment : Int}
    (hcount : waitsInStay h = sendsInStay h) (hnext : t.client.mNextTimeout = scheduled (sendsInStay h + 1))
    (hfuzz : t.client.mFuzzNextTimeout = true) (low : -timeoutSpan ≤ adjustment) (high : adjustment ≤ timeoutSpan) :
    OnSchedule (h ++ [.sent]) (.waits state t.client.mNextTimeout (t.client.calculateTimeoutMillis adjustment)) := by
  intro state' base timeout heq _
  obtain ⟨rfl, rfl, rfl⟩ := BackoffEvent.waits.inj heq
  have hbase : scheduled (sendsInStay h + 1) = min (4000 * 2 ^ waitsInStay h) 64000 := by
    rw [hcount]
    rfl
  have hpow : 1 ≤ 2 ^ waitsInStay h := Nat.one_le_two_pow
  rw [(waitsInStay_sent h state t.client.mNextTimeout (t.client.calculateTimeoutMillis adjustment)).1, hnext, hbase]
  refine ⟨rfl, adjustment, low, high, ?_⟩
  rw [← hbase, ← hnext]
  refine calculateTimeoutMillis_fuzzed hfuzz ?_ ?_ low high
  · rw [hnext, hbase, initialTimeout]
    omega
  · rw [hnext, hbase, maxTimeout]
    omega

theorem backoff_step {h : List BackoffEvent} {s t : DhcpSystem} {l : DhcpLabel} {es : List BackoffEvent}
    (hinv : BackoffInv h s) (hstep : backoffStep s l = some (t, es)) :
    BackoffInv (h ++ es) t ∧ Throughout (fun before => OnSchedule (h ++ before)) es := by
  cases backoffStep_effect hstep with
  | silent state timeout fuzz =>
      rw [List.append_nil]
      refine ⟨⟨?_, ?_, ?_, ?_, ?_⟩, throughout_nil _⟩
      · rw [hinv.state, state]
      · rw [state, timeout]
        exact hinv.base
      · rw [state, fuzz]
        exact hinv.fuzz
      · rw [state]
        exact hinv.count
      · rw [state]
        exact hinv.tries
  | rests here state es events =>
      refine ⟨⟨?_, ?_, ?_, ?_, ?_⟩, ?_⟩
      · rw [stayAfter_quiet h fun e he => by obtain ⟨timeout, rfl⟩ := events e he; rfl, hinv.state, here, state]
      · exact fun hretransmits => absurd hretransmits (by rw [state]; exact id)
      · exact fun hretransmits => absurd hretransmits (by rw [state]; exact id)
      · exact fun hretransmits => absurd hretransmits (by rw [state]; exact id)
      · exact fun hgives => absurd (State.GivesUp.retransmits hgives) (by rw [state]; exact id)
      · refine throughout_of_forall fun e he before state' base timeout heq hretransmits => ?_
        obtain ⟨timeout', rfl⟩ := events e he
        cases heq
        exact hretransmits.elim
  | sends here left state timeout fuzz adjustment low high =>
      have hnext : t.client.mNextTimeout = scheduled (sendsInStay h + 1) := by
        rw [timeout, increaseTimeout_timeout, hinv.base here, scheduled_succ]
      have hfuzz : t.client.mFuzzNextTimeout = true := fuzz.trans (hinv.fuzz here)
      have hwaited := (waitsInStay_sent h s.client.mState t.client.mNextTimeout
        (t.client.calculateTimeoutMillis adjustment)).2
      refine ⟨⟨?_, ?_, ?_, ?_, ?_⟩, ?_⟩
      · rw [stayAfter_quiet h (by simp [BackoffEvent.entered?]), hinv.state, state]
      · rw [sendsInStay_sent]
        exact fun _ => hnext
      · exact fun _ => hfuzz
      · rw [sendsInStay_sent, hwaited, hinv.count here]
        exact fun _ => rfl
      · intro hgives
        rw [state] at hgives
        have hfew := left hgives
        rw [hinv.base here] at hfew
        rw [sendsInStay_sent]
        exact lt_five_of_scheduled hfew
      · have hsilent : Throughout (fun before => OnSchedule (h ++ before)) [BackoffEvent.sent] :=
          throughout_singleton fun _ _ _ heq => by cases heq
        exact hsilent.append (throughout_singleton (onSchedule_sent (hinv.count here) hnext hfuzz low high))
  | enters state here timeout fuzz =>
      refine ⟨⟨?_, ?_, ?_, ?_, ?_⟩, ?_⟩
      · rw [stayAfter_entered, here]
      · rw [sendsInStay_entered]
        exact fun _ => timeout
      · exact fun _ => fuzz
      · rw [sendsInStay_entered, waitsInStay_entered]
        exact fun _ => rfl
      · rw [sendsInStay_entered]
        exact fun _ => Nat.zero_le 5
      · exact throughout_singleton fun _ _ _ heq => by cases heq

/-- Every wait of a state that retransmits is on schedule, the fifth request is the last, and a transition leaves
nothing of the timeout behind. -/
theorem backoff_schedule {options : UInt32} {network : Network} {info : DhcpInfo} {requestAddress serverAddress : UInt32}
    {labels : List DhcpLabel} {u : DhcpSystem} {events : List BackoffEvent}
    (hrun : exec backoffStep (.start options network info requestAddress serverAddress) labels = some (u, events)) :
    Throughout OnSchedule events ∧ stayAfter events = u.client.mState ∧
      (u.client.mState.GivesUp → sendsInStay events ≤ 5) ∧
      ∀ l t es state, backoffStep u l = some (t, es) → .entered state ∈ es →
        t.client.mState = state ∧ t.client.mNextTimeout = noTimeout ∧ t.client.mFuzzNextTimeout = true := by
  have hstart : BackoffInv [] (.start options network info requestAddress serverAddress) :=
    ⟨rfl, fun h => h.elim, fun h => h.elim, fun h => h.elim, fun h => by rcases h with h | h <;> cases h⟩
  obtain ⟨hinv, hall⟩ := exec_throughout BackoffInv OnSchedule (fun _ _ _ _ _ hinv _ hstep => backoff_step hinv hstep)
    hstart (guarded_true _ labels) hrun
  refine ⟨hall, hinv.state, hinv.tries, fun l t es state hstep hmem => ?_⟩
  cases backoffStep_effect hstep with
  | silent => cases hmem
  | rests here state es events =>
      obtain ⟨timeout, heq⟩ := events _ hmem
      cases heq
  | sends => simp at hmem
  | enters state' here timeout fuzz =>
      obtain rfl := BackoffEvent.entered.inj (List.mem_singleton.mp hmem)
      exact ⟨here, timeout, fuzz⟩

/-- A discovery that nobody answers is sent again. -/
theorem backoff_schedule_discovery : ∃ u events,
    exec backoffStep firstStart [evaluateNow, evaluateNow, .poll 0 .timeout allSucceed 0, evaluateNow] = some (u, events) ∧
      events = [.entered .selecting, .sent, .waits .selecting 4000 4000, .sent, .waits .selecting 8000 8000] ∧
      Throughout OnSchedule events := by
  obtain ⟨u, events, hrun, hevents⟩ : ∃ u events,
      exec backoffStep firstStart [evaluateNow, evaluateNow, .poll 0 .timeout allSucceed 0, evaluateNow] = some (u, events) ∧
        events = [.entered .selecting, .sent, .waits .selecting 4000 4000, .sent, .waits .selecting 8000 8000] :=
    ⟨_, _, rfl, rfl⟩
  exact ⟨u, events, hrun, hevents, (backoff_schedule hrun).1⟩

end Trout.Dhcp
