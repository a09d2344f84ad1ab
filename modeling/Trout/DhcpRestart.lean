import Trout.DhcpPacing
import Trout.DhcpTransactions

/-! A client that hears nothing. Whatever it was about, it asks at most five more times for its address and then starts
over: nine evaluations of its state after the expiry of its lease it is looking for a server. What it has configured
stays as it is. -/

namespace Trout.Dhcp
open CInt Runs

/-! ### What is left to do -/

/-- How often a state that gives up sends its request again after a wait of the timeout. -/
def triesLeft (timeout : Nat) : Nat :=
  if timeout = noTimeout then 5
  else if timeout < 8000 then 4
  else if timeout < 16000 then 3
  else if timeout < 32000 then 2
  else if timeout < maxTimeout then 1
  else 0

/-- The requests that the client sends before it starts over, when nothing is heard and its lease has expired. -/
def DhcpClient.requestsLeft (c : DhcpClient) : Nat :=
  match c.mState with
  | .init => 0
  | .selecting => 0
  | .requesting => triesLeft c.mNextTimeout
  | .bound => 5
  | .renewing => 5
  | .rebinding => triesLeft c.mNextTimeout

/-- The evaluations that then lead to `Selecting`. -/
def DhcpClient.evaluationsLeft (c : DhcpClient) : Nat :=
  match c.mState with
  | .init => 1
  | .selecting => 0
  | .requesting => triesLeft c.mNextTimeout + 2
  | .bound => 9
  | .renewing => 8
  | .rebinding => triesLeft c.mNextTimeout + 2

theorem triesLeft_le (timeout : Nat) : triesLeft timeout ≤ 5 := by
  rw [triesLeft]
  split_ifs <;> omega

theorem requestsLeft_le (c : DhcpClient) : c.requestsLeft ≤ 5 := by
  have htries := triesLeft_le c.mNextTimeout
  rw [DhcpClient.requestsLeft]
  split <;> omega

theorem evaluationsLeft_le (c : DhcpClient) : c.evaluationsLeft ≤ 9 := by
  have htries := triesLeft_le c.mNextTimeout
  rw [DhcpClient.evaluationsLeft]
  split <;> omega

theorem evaluationsLeft_eq_zero {c : DhcpClient} (h : c.evaluationsLeft = 0) : c.mState = .selecting := by
  rw [DhcpClient.evaluationsLeft] at h
  split at h
  · cases h
  · assumption
  · cases h
  · cases h
  · cases h
  · cases h

theorem triesLeft_doubled {timeout : Nat} (hlow : initialTimeout ≤ timeout) (hhigh : timeout < maxTimeout) :
    triesLeft (min (2 * timeout) maxTimeout) + 1 ≤ triesLeft timeout := by
  rw [initialTimeout] at hlow
  rw [maxTimeout] at hhigh
  have hnext : min (2 * timeout) maxTimeout = 2 * timeout ∨ 32000 ≤ timeout ∧ min (2 * timeout) maxTimeout = 64000 := by
    rw [maxTimeout]
    omega
  rcases hnext with hnext | ⟨hlast, hnext⟩
  · rw [hnext]
    simp only [triesLeft, noTimeout, maxTimeout]
    grind
  · rw [hnext]
    simp only [triesLeft, noTimeout, maxTimeout]
    grind

/-- A request takes one try off what is left of them. -/
theorem triesLeft_sent {c : DhcpClient} (h : Schedules c) (hretransmits : c.mState.Retransmits)
    (hleft : c.mNextTimeout < maxTimeout) (message : Message) :
    triesLeft (c.sendNew message).1.increaseTimeout.mNextTimeout + 1 ≤ triesLeft c.mNextTimeout := by
  have htimeout := increaseTimeout_timeout (c.sendNew message).1
  rw [show (c.sendNew message).1.mNextTimeout = c.mNextTimeout from rfl] at htimeout
  rw [htimeout]
  rcases h.base hretransmits with hnone | ⟨hlow, -⟩
  · rw [if_pos hnone, hnone]
    decide
  · have hlong : c.mNextTimeout ≠ noTimeout := by
      rw [initialTimeout] at hlow
      rw [noTimeout]
      omega
    rw [if_neg hlong]
    exact triesLeft_doubled hlow hleft

/-! ### Steps -/

def DhcpLabel.evaluates : DhcpLabel → Bool
  | .evaluate .. => true
  | .poll .. => false

/-- The requests among the messages sent. -/
def requestsSent (events : List DhcpEvent) : Nat := (sentMessages events).countP fun message => message.type = dhcpRequest

/-- No valid message arrives, and a timer that the client evaluates has expired. -/
def HearsNothing (s : DhcpSystem) : DhcpLabel → Prop
  | .evaluate expiredAt _ _ =>
      (s.client.mState = .bound → s.client.mT1.expired expiredAt = true) ∧
        (s.client.mState = .renewing → s.client.mT2.expired expiredAt = true)
  | .poll _ (.readable received) _ _ => s.client.receiveDhcpMessage received = none
  | .poll _ _ _ _ => True

instance (s : DhcpSystem) (l : DhcpLabel) : Decidable (HearsNothing s l) :=
  match l with
  | .evaluate _ _ _ => inferInstanceAs (Decidable ((_ → _) ∧ (_ → _)))
  | .poll _ (.readable received) _ _ =>
      decidable_of_iff ((s.client.receiveDhcpMessage received).isNone = true) Option.isNone_iff_eq_none
  | .poll _ .timeout _ _ => isTrue trivial
  | .poll _ .error _ _ => isTrue trivial

theorem requestsSent_append (h es : List DhcpEvent) : requestsSent (h ++ es) = requestsSent h + requestsSent es := by
  rw [requestsSent, sentMessages_append, List.countP_append]
  rfl

theorem requestsSent_sent (message : Message) : requestsSent [.sent message] ≤ 1 := List.countP_le_length

theorem requestsSent_discover (sourceMac : Vector UInt8 6) (transactionId : UInt32) :
    requestsSent [.sent (.discover sourceMac transactionId)] = 0 := by
  refine List.countP_eq_zero.mpr fun message hmessage => ?_
  obtain rfl := List.mem_singleton.mp hmessage
  rw [Message.type_discover]
  decide

/-- The client has come closer to its start, and has sent no more than it may. -/
structure Nearer (c : DhcpClient) (r : DhcpClient × List DhcpEvent) : Prop where
  network : r.1.network = c.network
  schedules : Schedules r.1
  evaluations : r.1.evaluationsLeft ≤ c.evaluationsLeft - 1
  requests : requestsSent r.2 + r.1.requestsLeft ≤ c.requestsLeft

theorem nearer_gaveUp {c : DhcpClient} (hgives : c.mState.GivesUp) : Nearer c (c.moveTo .init) := by
  refine ⟨rfl, schedules_setNextState c .init, ?_, Nat.zero_le _⟩
  have hleft : 2 ≤ c.evaluationsLeft := by
    rw [DhcpClient.evaluationsLeft]
    rcases hgives with here | here <;> rw [here] <;> exact Nat.le_add_left _ _
  have hinit : (c.moveTo .init).1.evaluationsLeft = 1 := rfl
  omega

theorem nearer_requested {c : DhcpClient} (hschedules : Schedules c) (hgives : c.mState.GivesUp)
    (hleft : c.mNextTimeout < maxTimeout) (message : Message) : Nearer c (DhcpClient.awaitReply (c.sendNew message)) := by
  obtain ⟨hstate, hfuzz, hlow, hhigh⟩ := hschedules.sent hgives.retransmits message
  have htries := triesLeft_sent hschedules hgives.retransmits hleft message
  have hsent := requestsSent_sent message
  have hsame := increaseTimeout_same (c.sendNew message).1
  rw [DhcpClient.awaitReply]
  generalize (c.sendNew message).1.increaseTimeout = c' at hstate hfuzz hlow hhigh htries hsame
  refine ⟨hsame.2, ⟨fun _ => hfuzz, fun _ => Or.inr ⟨hlow, hhigh⟩⟩, ?_, ?_⟩
  · rw [DhcpClient.evaluationsLeft, DhcpClient.evaluationsLeft, hstate]
    rcases hgives with here | here <;> rw [here] <;> dsimp only <;> omega
  · rw [DhcpClient.requestsLeft, DhcpClient.requestsLeft, hstate]
    change requestsSent [.sent message] + _ ≤ _
    rcases hgives with here | here <;> rw [here] <;> dsimp only <;> omega

theorem nearer_discovers {c : DhcpClient} (hschedules : Schedules c) (here : c.mState = .selecting) {message : Message}
    (hdiscover : requestsSent [.sent message] = 0) : Nearer c (DhcpClient.awaitReply (c.sendNew message)) := by
  obtain ⟨hstate, hfuzz, hlow, hhigh⟩ := hschedules.sent (by rw [here]; trivial) message
  have hsame := increaseTimeout_same (c.sendNew message).1
  rw [DhcpClient.awaitReply]
  generalize (c.sendNew message).1.increaseTimeout = c' at hstate hfuzz hlow hhigh hsame
  refine ⟨hsame.2, ⟨fun _ => hfuzz, fun _ => Or.inr ⟨hlow, hhigh⟩⟩, ?_, ?_⟩
  · rw [DhcpClient.evaluationsLeft, hstate, here]
    exact Nat.zero_le _
  · rw [DhcpClient.requestsLeft, hstate, here]
    change requestsSent [.sent message] + 0 ≤ _
    rw [hdiscover]
    exact Nat.zero_le _

/-- One evaluation without an answer, state by state. -/
theorem evaluate_nearer {c : DhcpClient} (hschedules : Schedules c) {expiredAt : Nat}
    (hT1 : c.mState = .bound → c.mT1.expired expiredAt = true)
    (hT2 : c.mState = .renewing → c.mT2.expired expiredAt = true) (remainingAt : Nat) :
    Nearer c (c.evaluate expiredAt remainingAt) := by
  unfold DhcpClient.evaluate
  split <;> rename_i here
  · exact ⟨rfl, schedules_setNextState c .selecting, Nat.zero_le _, Nat.zero_le _⟩
  · have hdiscover := requestsSent_discover c.network.macAddress c.sNextTransactionId
    rw [DhcpClient.sendDhcpDiscover]
    exact nearer_discovers hschedules here hdiscover
  · by_cases hexhausted : c.mNextTimeout ≥ maxTimeout
    · rw [if_pos hexhausted]
      exact nearer_gaveUp (Or.inl here)
    · rw [if_neg hexhausted]
      exact nearer_requested hschedules (Or.inl here) (Nat.lt_of_not_le hexhausted) _
  · rw [if_pos (hT1 here)]
    refine ⟨rfl, schedules_setNextState c .renewing, ?_, ?_⟩
    · rw [DhcpClient.evaluationsLeft, DhcpClient.evaluationsLeft, here]
      exact le_refl 8
    · rw [DhcpClient.requestsLeft, DhcpClient.requestsLeft, here]
      exact le_refl 5
  · rw [if_pos (hT2 here)]
    refine ⟨rfl, schedules_setNextState c .rebinding, ?_, ?_⟩
    · rw [DhcpClient.evaluationsLeft, DhcpClient.evaluationsLeft, here]
      exact le_refl 7
    · rw [DhcpClient.requestsLeft, DhcpClient.requestsLeft, here]
      exact le_refl 5
  · by_cases hexhausted : c.mNextTimeout ≥ maxTimeout
    · rw [if_pos hexhausted]
      exact nearer_gaveUp (Or.inr here)
    · rw [if_neg hexhausted]
      exact nearer_requested hschedules (Or.inr here) (Nat.lt_of_not_le hexhausted) _

theorem dhcpStep_schedules {s t : DhcpSystem} {l : DhcpLabel} {es : List DhcpEvent} (hschedules : Schedules s.client)
    (hstep : dhcpStep s l = some (t, es)) : Schedules t.client := by
  cases dhcpStep_effect hstep with
  | waits timeout polled same silent =>
      rw [same]
      exact hschedules
  | rests expiredAt remainingAt adjustment label here timeout result silent =>
      have hstate : t.client.mState = .bound := by rw [result, here]
      exact schedules_of_not (by rw [hstate]; exact id)
  | sends expiredAt remainingAt adjustment label message sent result event =>
      obtain ⟨hstate, hfuzz, hlow, hhigh⟩ := hschedules.sent sent.retransmits message
      rw [result]
      exact ⟨fun _ => hfuzz, fun _ => Or.inr ⟨hlow, hhigh⟩⟩
  | advances expiredAt remainingAt adjustment label state edge result event again =>
      rw [result]
      exact schedules_setNextState s.client state
  | handles startedAt currentTime received env label timeout polled msg valid result event again =>
      rw [result]
      cases handleMessage_pace s.client msg env with
      | answers state cause calls silent events schedules returns => exact schedules
      | passes silent state schedules goes => exact schedules hschedules

/-- A step of a client that hears nothing. -/
theorem dhcpStep_nearer {s t : DhcpSystem} {l : DhcpLabel} {es : List DhcpEvent} (hschedules : Schedules s.client)
    (hnothing : HearsNothing s l) (hstep : dhcpStep s l = some (t, es)) :
    t.client.network = s.client.network ∧
      t.client.evaluationsLeft ≤ s.client.evaluationsLeft - (if l.evaluates then 1 else 0) ∧
      requestsSent es + t.client.requestsLeft ≤ s.client.requestsLeft := by
  cases l with
  | evaluate expiredAt remainingAt adjustment =>
      have hnearer := evaluate_nearer hschedules hnothing.1 hnothing.2 remainingAt
      rw [dhcpStep] at hstep
      split at hstep
      · cases hstep
        exact ⟨hnearer.network, hnearer.evaluations, hnearer.requests⟩
      · cases hstep
  | poll startedAt result env currentTime =>
      cases dhcpStep_effect hstep with
      | waits timeout polled same silent =>
          rw [same, silent]
          exact ⟨rfl, le_refl _, (Nat.zero_add _).le⟩
      | rests expiredAt remainingAt adjustment label => cases label
      | sends expiredAt remainingAt adjustment label => cases label
      | advances expiredAt remainingAt adjustment label => cases label
      | handles startedAt' currentTime' received env' label timeout polled msg valid =>
          cases label
          have hnone : s.client.receiveDhcpMessage received = none := hnothing
          rw [hnone] at valid
          cases valid

/-! ### Runs -/

variable {options : UInt32} {network : Network} {info : DhcpInfo} {requestAddress serverAddress : UInt32}
  {before after : List DhcpLabel} {s u : DhcpSystem} {events more : List DhcpEvent}

/-- From whatever a run has come to, a client that hears nothing and whose lease has expired sends at most five requests,
leaves the network alone, and is back in `Selecting` after nine evaluations. -/
theorem starts_over
    (hbefore : exec dhcpStep (.start options network info requestAddress serverAddress) before = some (s, events))
    (hafter : exec dhcpStep s after = some (u, more)) (hnothing : Guarded dhcpStep HearsNothing s after) :
    requestsSent more ≤ 5 ∧ u.client.network = s.client.network ∧
      (9 ≤ after.countP DhcpLabel.evaluates → u.client.mState = .selecting) := by
  have hschedules : Schedules s.client := by
    refine exec_invariant (fun s => Schedules s.client) (fun s l t es hI _ hstep => dhcpStep_schedules hI hstep)
      (schedules_of_not id) (guarded_true _ before) hbefore
  refine ⟨?_, ?_, fun hmany => ?_⟩
  · have hspent : Schedules u.client ∧ requestsSent more + u.client.requestsLeft ≤ s.client.requestsLeft := by
      refine exec_invariant_history
        (fun h u => Schedules u.client ∧ requestsSent h + u.client.requestsLeft ≤ s.client.requestsLeft)
        (fun h t l t' es hI hhears hstep => ?_) (h := []) ⟨hschedules, (Nat.zero_add _).le⟩ hnothing hafter
      obtain ⟨-, -, hrequests⟩ := dhcpStep_nearer hI.1 hhears hstep
      refine ⟨dhcpStep_schedules hI.1 hstep, ?_⟩
      have hsofar := hI.2
      rw [requestsSent_append]
      omega
    have hfive := requestsLeft_le s.client
    omega
  · have hsame : Schedules u.client ∧ u.client.network = s.client.network := by
      refine exec_invariant (fun u => Schedules u.client ∧ u.client.network = s.client.network)
        (fun t l t' es hI hhears hstep => ?_) ⟨hschedules, rfl⟩ hnothing hafter
      obtain ⟨hnetwork, -, -⟩ := dhcpStep_nearer hI.1 hhears hstep
      exact ⟨dhcpStep_schedules hI.1 hstep, hnetwork.trans hI.2⟩
    exact hsame.2
  · have hrank := exec_rank (fun s => Schedules s.client) (fun s => s.client.evaluationsLeft) DhcpLabel.evaluates
      (fun t l t' es hI hhears hstep => ⟨dhcpStep_schedules hI hstep, (dhcpStep_nearer hI hhears hstep).2.1⟩)
      hschedules hnothing hafter
    have hnine := evaluationsLeft_le s.client
    exact evaluationsLeft_eq_zero (by omega)

/-- A wait that passes, and the next evaluation. -/
def waitInVain : List DhcpLabel := [.poll 0 .timeout allSucceed 0, evaluateNow]

/-- A client with a lease of one second. -/
def silence : List DhcpLabel :=
  [evaluateNow, evaluateNow, evaluateNow] ++ waitInVain ++ waitInVain ++ waitInVain ++ waitInVain ++ waitInVain ++
    [evaluateNow]

/-- The client that has just been given its lease. -/
def leasedStart : DhcpSystem := ((exec dhcpStep firstStart ackRun).map Prod.fst).getD firstStart

theorem starts_over_bound : ∃ u events more, exec dhcpStep firstStart ackRun = some (leasedStart, events) ∧
    exec dhcpStep leasedStart silence = some (u, more) ∧ leasedStart.client.mState = .bound ∧ requestsSent more ≤ 5 ∧
    u.client.mState = .selecting ∧ u.client.network.address = 5 := by
  obtain ⟨events, hbefore, hbound, haddress⟩ : ∃ events, exec dhcpStep firstStart ackRun = some (leasedStart, events) ∧
      leasedStart.client.mState = .bound ∧ leasedStart.client.network.address = 5 := ⟨_, rfl, rfl, rfl⟩
  obtain ⟨u, more, hafter⟩ : ∃ u more, exec dhcpStep leasedStart silence = some (u, more) := ⟨_, _, rfl⟩
  have hnothing : Guarded dhcpStep HearsNothing leasedStart silence := by
    decide +kernel
  obtain ⟨hrequests, hnetwork, hselecting⟩ := starts_over hbefore hafter hnothing
  exact ⟨u, events, more, hbefore, hafter, hbound, hrequests, hselecting (by decide), by rw [hnetwork, haddress]⟩

end Trout.Dhcp
