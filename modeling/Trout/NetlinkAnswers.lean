import Trout.DhcpSubnet
import Trout.Runs

/-! The conversation of `Interface::setAddress` with the kernel over one netlink socket. A request asks for an
acknowledgement, the kernel puts an answer into the socket unless it is lost, and the call reads one that is there. The
socket is a parameter: that it gives the answers in the order in which they came is a hypothesis. A call that cannot read
its answer leaves it to the next one, and from then on the answers are those of earlier requests. -/

namespace Trout.Dhcp
open RingWindow Runs

/-! ### Answers -/

/-- `NLMSG_ERROR`, `sizeof(struct nlmsgerr)` and the size of `buffer` -/
def nlmsgError : UInt16 := 2
def nlmsgerrSize : Nat := 20
def responseBufferSize : Nat := 8192

/-- What `setAddress` makes of the bytes that `recv` has put into its buffer: whether it returns success. -/
def setAddressResponse (received : List UInt8) : Bool :=
  let buffer := fun i => received.getD i 0
  if received.length < nlmsghdrSize then
    false
  else if load16 buffer 4 = nlmsgError then
    if received.length < nlmsghdrSize + nlmsgerrSize then false else load32 buffer nlmsghdrSize = 0
  else
    true

/-- The kernel's answer to a request with `NLM_F_ACK`: an error number, or 0, and the request or its header. -/
structure Answer where
  nlmsgLen : UInt32
  nlmsgFlags : UInt16
  nlmsgSeq : UInt32
  nlmsgPid : UInt32
  error : UInt32
  request : List UInt8
  header : nlmsghdrSize ≤ request.length

namespace Answer

def bytes (a : Answer) : List UInt8 :=
  bytes32 a.nlmsgLen ++ bytes16 nlmsgError ++ bytes16 a.nlmsgFlags ++ bytes32 a.nlmsgSeq ++ bytes32 a.nlmsgPid ++
    (bytes32 a.error ++ a.request)

/-- The kernel has done what the request says. -/
def accepts (a : Answer) : Bool := a.error = 0

end Answer

/-- What has been read of an answer says whether the kernel has accepted the request. -/
theorem setAddressResponse_answer (a : Answer) :
    setAddressResponse (a.bytes.take responseBufferSize) = a.accepts := by
  have hheader := a.header
  have hlength : a.bytes.length = 20 + a.request.length := by
    have hword : ∀ x, (bytes32 x).length = 4 := fun _ => rfl
    have hhalf : ∀ x, (bytes16 x).length = 2 := fun _ => rfl
    simp only [Answer.bytes, List.length_append, hword, hhalf]
    omega
  have htaken : nlmsghdrSize + nlmsgerrSize ≤ (a.bytes.take responseBufferSize).length := by
    rw [List.length_take, hlength]
    rw [nlmsghdrSize] at hheader
    simp only [nlmsghdrSize, nlmsgerrSize, responseBufferSize]
    omega
  have hgetD : ∀ i < nlmsghdrSize + nlmsgerrSize,
      (a.bytes.take responseBufferSize).getD i 0 = a.bytes.getD i 0 := by
    intro i hi
    have hlt : i < responseBufferSize := lt_of_lt_of_le hi (by decide)
    rw [List.getD_eq_getElem?_getD, List.getD_eq_getElem?_getD, List.getElem?_take_of_lt hlt]
  have htype : load16 (fun i => (a.bytes.take responseBufferSize).getD i 0) 4 = nlmsgError := by
    have hlow : a.bytes.getD 4 0 = nlmsgError.toUInt8 := rfl
    have hhigh : a.bytes.getD 5 0 = (nlmsgError >>> 8).toUInt8 := rfl
    rw [load16, hgetD 4 (by decide), hgetD 5 (by decide), hlow, hhigh]
    decide
  have herror : load32 (fun i => (a.bytes.take responseBufferSize).getD i 0) nlmsghdrSize = a.error := by
    rw [load32, hgetD _ (by decide), hgetD _ (by decide), hgetD _ (by decide), hgetD _ (by decide)]
    exact load32_getD_bytes32 a.error a.request
  have hsize : nlmsghdrSize ≤ (a.bytes.take responseBufferSize).length := le_trans (Nat.le_add_right _ _) htaken
  rw [setAddressResponse]
  simp only [htype, herror, if_neg (Nat.not_lt.mpr hsize), if_neg (Nat.not_lt.mpr htaken), if_true]
  rfl

/-! ### The socket -/

variable {κ : Type}

/-- A netlink socket of the kernel: how it is when it is opened, what an answer makes of it, and what `recv` takes from
it, unless it waits. -/
structure NetlinkSocket (κ : Type) where
  opened : κ
  deliver : Answer → κ → κ
  recv : κ → Option (Answer × κ)

/-- The socket keeps the answers that wait in it in the order in which they came. -/
structure NetlinkSocket.InOrder (socket : NetlinkSocket κ) (waiting : κ → List Answer) : Prop where
  opened : waiting socket.opened = []
  delivers : ∀ a k, waiting (socket.deliver a k) = waiting k ++ [a]
  receives : ∀ k a k', socket.recv k = some (a, k') → waiting k = a :: waiting k'

/-! ### Calls -/

/-- A call: whether `sendto` and `recv` succeed, what the kernel answers to the request, and whether there is room for
the answer. -/
structure SetAddressCall where
  sent : Bool
  answer : Answer
  delivered : Bool
  received : Bool

/-- A call with its result, and the answer that it has read. -/
structure SetAddressReturn where
  call : SetAddressCall
  read : Option Answer
  success : Bool

/-- The socket after the request has been sent. -/
def SetAddressCall.answered (call : SetAddressCall) (socket : NetlinkSocket κ) (k : κ) : κ :=
  if call.delivered then socket.deliver call.answer k else k

/-- The next call of `setAddress`. Without an answer in the socket `recv` does not return. -/
def setAddressStep (socket : NetlinkSocket κ) (k : κ) (call : SetAddressCall) : Option (κ × List SetAddressReturn) :=
  if ¬ call.sent then
    some (k, [⟨call, none, false⟩])
  else if ¬ call.received then
    some (call.answered socket k, [⟨call, none, false⟩])
  else
    (socket.recv (call.answered socket k)).map fun r =>
      (r.2, [⟨call, some r.1, setAddressResponse (r.1.bytes.take responseBufferSize)⟩])

/-- The answer that the kernel gives to a call, unless it is lost. -/
def SetAddressCall.given (call : SetAddressCall) : Option Answer :=
  if call.sent && call.delivered then some call.answer else none

/-- The answers of the kernel, in the order of the requests. -/
def givenAnswers (returns : List SetAddressReturn) : List Answer := returns.filterMap fun r => r.call.given

/-- The answers that the calls have read. -/
def readAnswers (returns : List SetAddressReturn) : List Answer := returns.filterMap SetAddressReturn.read

/-- A result is what the answer that has been read says, and a failure without one. -/
def SetAddressReturn.Reports (r : SetAddressReturn) : Prop := r.success = r.read.elim false Answer.accepts

/-- A call reads the answer to its own request, or none if that is lost, and its result is whether the request has been
accepted. -/
structure SetAddressReturn.Truthful (r : SetAddressReturn) : Prop where
  own : r.read = r.call.given
  result : r.success = r.call.given.elim false Answer.accepts

/-- An answer that is there is read. -/
def Receives (_ : κ) (call : SetAddressCall) : Prop :=
  call.sent = true → call.delivered = true → call.received = true

/-- A call that does not return has lost its answer. -/
theorem receives_of_blocked {socket : NetlinkSocket κ} {k : κ} {call : SetAddressCall}
    (h : setAddressStep socket k call = none) : Receives k call := by
  intro hsent hdelivered
  rw [setAddressStep, if_neg (not_not.mpr hsent)] at h
  by_contra hreceived
  rw [if_pos hreceived] at h
  cases h

section Calls
variable {socket : NetlinkSocket κ} {waiting : κ → List Answer} (horder : socket.InOrder waiting)
include horder

theorem waiting_answered {call : SetAddressCall} (hsent : call.sent = true) (k : κ) :
    waiting (call.answered socket k) = waiting k ++ call.given.toList := by
  rw [SetAddressCall.answered, SetAddressCall.given, hsent, Bool.true_and]
  cases call.delivered with
  | false => exact (List.append_nil _).symm
  | true => exact horder.delivers call.answer k

/-- A call takes the oldest answer from the socket, its own included, or leaves all. -/
theorem setAddressStep_answers {k k' : κ} {call : SetAddressCall} {returns : List SetAddressReturn}
    (h : setAddressStep socket k call = some (k', returns)) :
    ∃ r, returns = [r] ∧ r.call = call ∧ waiting k ++ call.given.toList = r.read.toList ++ waiting k' ∧ r.Reports ∧
      (r.read = none ↔ call.sent = false ∨ call.received = false) := by
  rw [setAddressStep] at h
  by_cases hsent : ¬ call.sent = true
  · rw [if_pos hsent] at h
    cases h
    have hfalse := Bool.eq_false_of_not_eq_true hsent
    refine ⟨_, rfl, rfl, ?_, rfl, iff_of_true rfl (Or.inl hfalse)⟩
    rw [SetAddressCall.given, hfalse, Bool.false_and, if_neg Bool.false_ne_true]
    exact List.append_nil _
  rw [if_neg hsent] at h
  rw [not_not] at hsent
  rw [← waiting_answered horder hsent]
  by_cases hreceived : ¬ call.received = true
  · rw [if_pos hreceived] at h
    cases h
    exact ⟨_, rfl, rfl, rfl, rfl, iff_of_true rfl (Or.inr (Bool.eq_false_of_not_eq_true hreceived))⟩
  rw [if_neg hreceived] at h
  rw [not_not] at hreceived
  obtain ⟨⟨first, rest⟩, hrecv, heq⟩ := Option.map_eq_some_iff.mp h
  cases heq
  refine ⟨_, rfl, rfl, horder.receives _ _ _ hrecv, setAddressResponse_answer first, iff_of_false nofun ?_⟩
  rw [hsent, hreceived]
  exact fun h => h.elim nofun nofun

/-- From a socket without answers a call leaves none exactly when it reads its own, and then its result is true. -/
theorem setAddressStep_matched {k k' : κ} (hempty : waiting k = []) {call : SetAddressCall}
    {returns : List SetAddressReturn} (h : setAddressStep socket k call = some (k', returns)) :
    (waiting k' = [] ↔ Receives k call) ∧ (Receives k call → ∀ r ∈ returns, r.Truthful) := by
  obtain ⟨r, rfl, hcall, hanswers, hreports, hread⟩ := setAddressStep_answers horder h
  rw [hempty, List.nil_append] at hanswers
  have hleft : waiting k' = [] ↔ r.read = call.given := by
    constructor
    · intro hnone
      rw [hnone, List.append_nil] at hanswers
      have hsame := congrArg List.head? hanswers
      rw [Option.head?_toList, Option.head?_toList] at hsame
      exact hsame.symm
    · intro hown
      rw [hown] at hanswers
      exact List.append_right_eq_self.mp hanswers.symm
  have hreceives : r.read = call.given ↔ Receives k call := by
    rw [Receives]
    constructor
    · intro hown hsent hdelivered
      by_contra hreceived
      have hnone := hread.mpr (Or.inr (Bool.eq_false_of_not_eq_true hreceived))
      rw [hown, SetAddressCall.given, hsent, hdelivered] at hnone
      cases hnone
    · intro hreceives
      cases hread' : r.read with
      | none =>
          rw [SetAddressCall.given]
          rcases hread.mp hread' with hsent | hreceived
          · rw [hsent]
            rfl
          · have hlost : ¬ (call.sent && call.delivered) = true := by
              rw [Bool.and_eq_true]
              rintro ⟨hsent, hdelivered⟩
              rw [hreceives hsent hdelivered] at hreceived
              cases hreceived
            rw [if_neg hlost]
      | some a =>
          rw [hread'] at hanswers
          cases hgiven : call.given with
          | none =>
              rw [hgiven] at hanswers
              cases hanswers
          | some own =>
              rw [hgiven] at hanswers
              exact congrArg some (List.cons.inj hanswers).1.symm
  refine ⟨hleft.trans hreceives, fun hreads r' hr' => ?_⟩
  rw [List.mem_singleton.mp hr']
  have hown := hreceives.mpr hreads
  exact ⟨by rw [hcall, hown], by rw [hcall, ← hown]; exact hreports⟩

/-! ### Runs -/

/-- The calls read the answers in the order of the requests, each the oldest that has not been read, and return success
exactly when they have read the acceptance of a request. -/
theorem answers_in_order {calls : List SetAddressCall} {k : κ} {returns : List SetAddressReturn}
    (hrun : exec (setAddressStep socket) socket.opened calls = some (k, returns)) :
    givenAnswers returns = readAnswers returns ++ waiting k ∧ ∀ r ∈ returns, r.Reports := by
  refine exec_history (fun h k => givenAnswers h = readAnswers h ++ waiting k ∧ ∀ r ∈ h, r.Reports)
    (fun h k call k' returns hI hstep => ?_) ⟨horder.opened.symm, fun r hr => absurd hr List.not_mem_nil⟩ hrun
  obtain ⟨hgiven, hreports⟩ := hI
  obtain ⟨r, rfl, rfl, hanswers, hlast, -⟩ := setAddressStep_answers horder hstep
  have hone {α β : Type} (f : α → Option β) (l : List α) (a : α) :
      (l ++ [a]).filterMap f = l.filterMap f ++ (f a).toList := by
    rw [List.filterMap_append, List.filterMap_cons]
    cases f a <;> rfl
  refine ⟨?_, fun r' hr' => ?_⟩
  · calc givenAnswers (h ++ [r]) = givenAnswers h ++ r.call.given.toList := hone _ h r
      _ = readAnswers h ++ (waiting k ++ r.call.given.toList) := by rw [hgiven, List.append_assoc]
      _ = readAnswers h ++ r.read.toList ++ waiting k' := by rw [hanswers, List.append_assoc]
      _ = readAnswers (h ++ [r]) ++ waiting k' := by rw [readAnswers, readAnswers, hone]
  · rcases List.mem_append.mp hr' with hold | hnew
    · exact hreports r' hold
    · rw [List.mem_singleton.mp hnew]
      exact hlast

/-- No answer is left over after any call, so that none is taken for that of a later request, exactly when every call
reads the answer that it is given; and then every call reads the answer to its own request, and its result is whether the
kernel has accepted that. -/
theorem answers_matched (calls : List SetAddressCall) :
    (Always (setAddressStep socket) (fun k => waiting k = []) socket.opened calls ↔
        Guarded (setAddressStep socket) Receives socket.opened calls) ∧
      (Guarded (setAddressStep socket) Receives socket.opened calls → ∀ k returns,
        exec (setAddressStep socket) socket.opened calls = some (k, returns) → ∀ r ∈ returns, r.Truthful) := by
  constructor
  · exact always_iff_guarded (fun k call k' returns hempty hstep => (setAddressStep_matched horder hempty hstep).1)
      (fun k call hnone => receives_of_blocked hnone) horder.opened calls
  · intro hreceives k returns hrun
    have hinvariant := exec_invariant_history
      (fun h k => waiting k = [] ∧ ∀ r ∈ h, SetAddressReturn.Truthful r)
      (fun h k call k' returns hI hreceives hstep => ?_) (h := [])
      ⟨horder.opened, fun r hr => absurd hr List.not_mem_nil⟩ hreceives hrun
    · exact hinvariant.2
    · obtain ⟨hempty, htruthful⟩ := hI
      obtain ⟨hleft, hnew⟩ := setAddressStep_matched horder hempty hstep
      refine ⟨hleft.mpr hreceives, fun r hr => ?_⟩
      rcases List.mem_append.mp hr with hold | hlast
      · exact htruthful r hold
      · exact hnew hreceives r hlast

end Calls

/-- A socket that is the list of the answers in it. -/
def answerQueue : NetlinkSocket (List Answer) where
  opened := []
  deliver a k := k ++ [a]
  recv
    | [] => none
    | a :: k => some (a, k)

theorem answerQueue_inOrder : answerQueue.InOrder id where
  opened := rfl
  delivers _ _ := rfl
  receives k a k' h := by
    cases k with
    | nil => cases h
    | cons b k =>
        cases h
        rfl

/-- An acknowledgement with an error number. -/
def plainAnswer (error : UInt32) : Answer := ⟨36, 0, 0, 0, error, .replicate 16 0, le_refl _⟩

/-- After a refused request whose answer has not been read, an accepted one is reported as refused. -/
theorem answers_in_order_late : ∃ k returns,
    exec (setAddressStep answerQueue) [] [⟨true, plainAnswer 0xFFFFFFED, true, false⟩, ⟨true, plainAnswer 0, true, true⟩] =
      some (k, returns) ∧
    returns.map SetAddressReturn.success = [false, false] ∧
    givenAnswers returns = readAnswers returns ++ k ∧ (∀ r ∈ returns, r.Reports) ∧
    ¬ ∀ r ∈ returns, r.Truthful := by
  obtain ⟨k, first, second, hrun, hresults, haccepted, hlate⟩ : ∃ k first second,
      exec (setAddressStep answerQueue) []
        [⟨true, plainAnswer 0xFFFFFFED, true, false⟩, ⟨true, plainAnswer 0, true, true⟩] = some (k, [first, second]) ∧
      [first, second].map SetAddressReturn.success = [false, false] ∧
      second.call.given.elim false Answer.accepts = true ∧ second.success = false :=
    ⟨_, _, _, rfl, rfl, rfl, rfl⟩
  obtain ⟨hgiven, hreports⟩ := answers_in_order answerQueue_inOrder hrun
  refine ⟨k, [first, second], hrun, hresults, hgiven, hreports, fun h => ?_⟩
  have htruthful := (h second (List.mem_cons_of_mem first List.mem_cons_self)).result
  rw [hlate, haccepted] at htruthful
  cases htruthful

/-- A request is refused, one is not sent, and one is accepted. -/
theorem answers_matched_three : ∃ k returns,
    exec (setAddressStep answerQueue) [] [⟨true, plainAnswer 0xFFFFFFED, true, true⟩, ⟨false, plainAnswer 0, true, true⟩,
      ⟨true, plainAnswer 0, true, true⟩] = some (k, returns) ∧
    returns.map SetAddressReturn.success = [false, false, true] ∧ ∀ r ∈ returns, r.Truthful := by
  obtain ⟨k, returns, hrun, hresults⟩ : ∃ k returns,
      exec (setAddressStep answerQueue) [] [⟨true, plainAnswer 0xFFFFFFED, true, true⟩,
        ⟨false, plainAnswer 0, true, true⟩, ⟨true, plainAnswer 0, true, true⟩] = some (k, returns) ∧
      returns.map SetAddressReturn.success = [false, false, true] := ⟨_, _, rfl, rfl⟩
  have hreceives : Guarded (setAddressStep answerQueue) Receives []
      [⟨true, plainAnswer 0xFFFFFFED, true, true⟩, ⟨false, plainAnswer 0, true, true⟩,
        ⟨true, plainAnswer 0, true, true⟩] :=
    guarded_cons rfl (fun _ _ => rfl) (guarded_cons rfl (fun _ _ => rfl) (guarded_cons rfl (fun _ _ => rfl) trivial))
  exact ⟨k, returns, hrun, hresults, (answers_matched answerQueue_inOrder _).2 hreceives k returns hrun⟩

end Trout.Dhcp
