import Trout.HalModel
import Trout.OutputWaiting
import Trout.PlaybackModel
import Trout.SharedPcmCounting

/-! The references that the workers take and release. A worker opens the PCM in one branch and closes it in its
standby loop; between its sections it holds as many references as it has an open PCM. -/

namespace Trout.Hal
open CInt RingWindow Runs Audio SharedPcm Playback

/-! ### The PCM of a worker -/

/-- The exit after a failure to open the PCM or to allocate its buffer. -/
def fetchAbandons (out : GenericStreamOut) (env : WorkerEnv) (w : WorkerLocals) : Bool :=
  audioVbufferLive out.buffer != 0 && (openPcm out w env).isNone

def standbyAbandons (out : GenericStreamOut) (env : WorkerEnv) (w : WorkerLocals) : Bool :=
  !(out.workerStandby || w.restart) && (if out.workerExit then w.extPcm.isSome else fetchAbandons out env w)

/-- The worker leaves its loop without closing the PCM: after such a failure, or on an exit request while it is
not in standby. -/
def abandons (out : GenericStreamOut) (env : WorkerEnv) : WorkerPc → Bool
  | .top w => standbyAbandons out env w
  | .standbyWait w true => standbyAbandons out env w
  | .emptyWait w true => fetchAbandons out env w
  | _ => false

/-- Whether the worker has a PCM after a section. -/
def hasPcmAfter (call : Option PcmCall) (before : Bool) : Bool :=
  match call with
  | some .opens => true
  | some .closes => false
  | none => before

theorem emptyLoop_hasPcm {out : GenericStreamOut} {env : WorkerEnv} {w : WorkerLocals} {r : Section WorkerPc}
    (h : emptyLoop out w env = some r) (hkeeps : fetchAbandons out env w = false) :
    (extPcmOf r.pc).isSome = hasPcmAfter (fetchCall out w) w.extPcm.isSome := by
  rw [emptyLoop] at h
  by_cases hempty : audioVbufferLive out.buffer = 0
  · rw [if_pos hempty] at h
    cases h
    rw [fetchCall, if_pos hempty]
    rfl
  · rw [if_neg hempty, fetchSection] at h
    rw [fetchAbandons, bne_iff_ne.mpr hempty, Bool.true_and] at hkeeps
    rw [fetchCall, if_neg hempty]
    split at h
    · next hnone =>
        rw [hnone] at hkeeps
        cases hkeeps
    · split at h
      · cases h
      · cases h
        cases w.extPcm with
        | none => rfl
        | some pcm => rfl

theorem standbyCheck_hasPcm {out : GenericStreamOut} {env : WorkerEnv} {w : WorkerLocals} {r : Section WorkerPc}
    (h : standbyCheck out w env = some r) (hkeeps : standbyAbandons out env w = false) :
    (extPcmOf r.pc).isSome = hasPcmAfter (standbyCall out w) w.extPcm.isSome := by
  rw [standbyCheck] at h
  rw [standbyAbandons] at hkeeps
  rw [standbyCall]
  by_cases hstandby : (out.workerStandby || w.restart) = true
  · have hnone : (extPcmOf r.pc).isSome = false := by
      rw [if_pos hstandby] at h
      split at h
      · cases h
        rfl
      · cases h
        rfl
    rw [if_pos hstandby, hnone]
    cases w.extPcm with
    | none => rfl
    | some pcm => rfl
  · rw [if_neg hstandby] at h ⊢
    rw [Bool.eq_false_of_not_eq_true hstandby, Bool.not_false, Bool.true_and] at hkeeps
    by_cases hexit : out.workerExit = true
    · rw [if_pos hexit] at h hkeeps ⊢
      cases h
      exact hkeeps.symm
    · rw [if_neg hexit] at h hkeeps ⊢
      exact emptyLoop_hasPcm h hkeeps

theorem workerSection_hasPcm {out : GenericStreamOut} {env : WorkerEnv} {pc : WorkerPc} {r : Section WorkerPc}
    (h : workerSection out env pc = some r) (hkeeps : abandons out env pc = false) :
    (extPcmOf r.pc).isSome = hasPcmAfter (pcmCall out pc) (extPcmOf pc).isSome := by
  unfold workerSection at h
  split at h
  · exact standbyCheck_hasPcm h hkeeps
  · exact standbyCheck_hasPcm h hkeeps
  · exact emptyLoop_hasPcm h hkeeps
  · cases h
    rfl
  · cases h

theorem fetchCall_opens {out : GenericStreamOut} {w : WorkerLocals} {call : PcmCall} (h : fetchCall out w = some call) :
    call = .opens ∧ w.extPcm.isSome = false := by
  rw [fetchCall] at h
  split at h
  · cases h
  · split at h
    · cases h
    · next hnone =>
        cases h
        exact ⟨rfl, Bool.eq_false_of_not_eq_true hnone⟩

theorem standbyCall_hasPcm {out : GenericStreamOut} {w : WorkerLocals} {call : PcmCall} (h : standbyCall out w = some call) :
    w.extPcm.isSome = decide (call = .closes) := by
  rw [standbyCall] at h
  split at h
  · split at h
    · next hsome =>
        cases h
        exact hsome
    · cases h
  · split at h
    · cases h
    · obtain ⟨rfl, hnone⟩ := fetchCall_opens h
      exact hnone

/-- A worker that closes the PCM has one, a worker that opens it has none. -/
theorem pcmCall_hasPcm {out : GenericStreamOut} {pc : WorkerPc} {call : PcmCall} (h : pcmCall out pc = some call) :
    (extPcmOf pc).isSome = decide (call = .closes) := by
  unfold pcmCall at h
  split at h
  · exact standbyCall_hasPcm h
  · exact standbyCall_hasPcm h
  · obtain ⟨rfl, hnone⟩ := fetchCall_opens h
    exact hnone
  · cases h

theorem fetchCall_ready {out : GenericStreamOut} {env : WorkerEnv} {w : WorkerLocals} (h : fetchCall out w = some .opens)
    (hkeeps : fetchAbandons out env w = false) : env.ready = true := by
  rw [fetchCall] at h
  split at h
  · cases h
  · next hempty =>
      rw [fetchAbandons, bne_iff_ne.mpr hempty, Bool.true_and, openPcm] at hkeeps
      split at h
      · cases h
      · next hnone =>
          rw [Bool.not_eq_true, Option.isSome_eq_false_iff, Option.isNone_iff_eq_none] at hnone
          rw [hnone] at hkeeps
          by_contra hready
          rw [if_neg hready] at hkeeps
          cases hkeeps

theorem standbyCall_ready {out : GenericStreamOut} {env : WorkerEnv} {w : WorkerLocals} (h : standbyCall out w = some .opens)
    (hkeeps : standbyAbandons out env w = false) : env.ready = true := by
  rw [standbyCall] at h
  rw [standbyAbandons] at hkeeps
  split at h
  · split at h <;> cases h
  · next hstandby =>
      rw [Bool.eq_false_of_not_eq_true hstandby, Bool.not_false, Bool.true_and] at hkeeps
      split at h
      · cases h
      · next hexit =>
          rw [if_neg hexit] at hkeeps
          exact fetchCall_ready h hkeeps

/-- The PCM of a worker that does not give up is ready. -/
theorem pcmCall_ready {out : GenericStreamOut} {env : WorkerEnv} {pc : WorkerPc} (h : pcmCall out pc = some .opens)
    (hkeeps : abandons out env pc = false) : env.ready = true := by
  unfold pcmCall at h
  split at h
  · exact standbyCall_ready h hkeeps
  · exact standbyCall_ready h hkeeps
  · exact fetchCall_ready h hkeeps
  · cases h

/-! ### Calls -/

section Calls
variable {ι : Type} [DecidableEq ι] {n : Nat}

/-- The calls of `ext_pcm_open` that a worker has made. -/
def opens (i : ι) (es : List (PcmEvent ι)) : Nat :=
  es.countP fun
    | .returned j _ _ => j == i
    | _ => false

/-- The calls of `ext_pcm_close` that a worker has made; one counts once it has given up its reference. -/
def closes (i : ι) (es : List (PcmEvent ι)) : Nat :=
  es.countP fun
    | .closed j _ _ => j == i
    | _ => false

/-- In `ext_pcm_open`. -/
def inOpen : CallPc → Bool
  | .createsMap => true
  | .setsRun => true
  | .counts => true
  | .reads _ => true
  | _ => false

/-- In the teardown of `ext_pcm_close`, or past its last section. -/
def inClose : CallPc → Bool
  | .idle => true
  | .joins _ => true
  | .destroys _ => true
  | _ => false

theorem not_inClose {pc : CallPc} (h : inOpen pc = true) : ¬ inClose pc = true := by
  cases pc with
  | idle => cases h
  | joins _ => cases h
  | destroys _ => cases h
  | createsMap => exact nofun
  | setsRun => exact nofun
  | counts => exact nofun
  | reads _ => exact nofun

/-- The calls of a worker against the references it holds. -/
inductive Accounted (st : HalStream n) (worker : Thread) (opens closes : Nat) : Prop where
  | between (calling : st.calling = false) (pc : worker.pc = .idle)
      (held : worker.held.length = (extPcmOf st.output.worker).isSome.toNat) (calls : opens = closes + worker.held.length)
  | opening (calling : st.calling = true) (call : pcmCall st.output.out st.output.worker = some .opens)
      (pc : inOpen worker.pc = true) (held : worker.held = []) (calls : opens = closes)
  | returned (calling : st.calling = true) (call : pcmCall st.output.out st.output.worker = some .opens)
      (pc : worker.pc = .idle) (held : worker.held.length ≤ 1) (calls : opens = closes + 1)
  | closing (calling : st.calling = true) (call : pcmCall st.output.out st.output.worker = some .closes)
      (pc : inClose worker.pc = true) (held : worker.held = []) (calls : opens = closes)

/-- Every worker's calls are accounted for; before its stream is opened there are none. -/
structure Balanced (h : List (PcmEvent ι)) (s : HalSystem ι n) : Prop where
  unopened : ∀ i, s.streams i = none → s.pcm.threads i = ⟨.idle, []⟩ ∧ opens i h = 0 ∧ closes i h = 0
  workers : ∀ i st, s.streams i = some st → Accounted st (s.pcm.threads i) (opens i h) (closes i h)

/-- No worker leaves its loop with an open PCM. -/
def ClosesItsPcm (s : HalSystem ι n) : HalLabel ι n → Prop
  | .output i (.worker env _) =>
      ((s.streams i).map fun st => abandons st.output.out env st.output.worker) ≠ some true
  | _ => True

theorem opens_returned (i j : ι) (counted : Address) (result : Option Address) :
    opens j [.returned i counted result] = if i = j then 1 else 0 := by
  rw [opens, List.countP_singleton]
  simp only [beq_iff_eq]

theorem closes_closed (i j : ι) (p : Address) (last : Bool) : closes j [.closed i p last] = if i = j then 1 else 0 := by
  rw [closes, List.countP_singleton]
  simp only [beq_iff_eq]

instance (s : HalSystem ι n) : (l : HalLabel ι n) → Decidable (ClosesItsPcm s l)
  | .openOutputStream .. => isTrue trivial
  | .output _ (.client _ _) => isTrue trivial
  | .output _ (.join _) => isTrue trivial
  | .output _ (.worker _ _) => inferInstanceAs (Decidable (_ ≠ _))
  | .output _ .workerSpurious => isTrue trivial
  | .pcm _ => isTrue trivial

/-- A step on the shared PCM moves one worker at most. -/
theorem stepped_other {s s' : PcmSystem (PipelineKey ι) ι} {l : PcmLabel (PipelineKey ι) ι} {es : List (PcmEvent ι)}
    (hstep : Stepped strEq s l s' es) {j : ι} (hj : worker? l ≠ some j) :
    s'.threads j = s.threads j ∧ opens j es = 0 ∧ closes j es = 0 := by
  have hother {i : ι} (hi : some i ≠ some j) (t : Thread) : Function.update s.threads i t j = s.threads j :=
    Function.update_of_ne (fun hji => hi (congrArg some hji.symm)) _ _
  cases hstep with
  | shares i p _ _ _ => exact ⟨hother hj _, rfl, rfl⟩
  | creates i _ _ _ => exact ⟨hother hj _, rfl, rfl⟩
  | createsMap i p _ _ => exact ⟨hother hj _, rfl, rfl⟩
  | setsRun i p _ _ => exact ⟨hother hj _, rfl, rfl⟩
  | counts i p _ _ => exact ⟨hother hj _, rfl, rfl⟩
  | returns i counted _ =>
      refine ⟨hother hj _, ?_, rfl⟩
      rw [opens_returned, if_neg fun hij => hj (congrArg some hij)]
  | closesLast i p _ _ _ _ =>
      refine ⟨hother hj _, rfl, ?_⟩
      rw [closes_closed, if_neg fun hij => hj (congrArg some hij)]
  | closesMore i p _ _ _ _ =>
      refine ⟨hother hj _, rfl, ?_⟩
      rw [closes_closed, if_neg fun hij => hj (congrArg some hij)]
  | joins i p _ _ => exact ⟨hother hj _, rfl, rfl⟩
  | destroys i p _ _ => exact ⟨hother hj _, rfl, rfl⟩
  | writes i p key keys _ _ _ => exact ⟨rfl, rfl, rfl⟩
  | mixes p _ _ => exact ⟨rfl, rfl, rfl⟩
  | tests p _ _ _ => exact ⟨rfl, rfl, rfl⟩

omit [DecidableEq ι] in
/-- A worker in `ext_pcm_open` holds no reference yet. -/
theorem Accounted.of_opening {st : HalStream n} {worker : Thread} {o c : Nat} (h : Accounted st worker o c)
    (hpc : inOpen worker.pc = true) : st.calling = true ∧ pcmCall st.output.out st.output.worker = some .opens ∧
      worker.held = [] ∧ o = c := by
  cases h with
  | between _ pc _ _ =>
      rw [pc] at hpc
      cases hpc
  | opening calling call _ held calls => exact ⟨calling, call, held, calls⟩
  | returned _ _ pc _ _ =>
      rw [pc] at hpc
      cases hpc
  | closing _ _ pc _ _ => exact absurd pc (not_inClose hpc)

omit [DecidableEq ι] in
theorem Accounted.of_tearing {st : HalStream n} {worker : Thread} {o c : Nat} {p : Address} (h : Accounted st worker o c)
    (hpc : worker.pc = .joins p ∨ worker.pc = .destroys p) : st.calling = true ∧
      pcmCall st.output.out st.output.worker = some .closes ∧ worker.held = [] ∧ o = c := by
  cases h with
  | between _ pc _ _ =>
      rw [pc] at hpc
      exact absurd hpc (by simp)
  | opening _ _ pc _ _ => rcases hpc with hpc | hpc <;> (rw [hpc] at pc; cases pc)
  | returned _ _ pc _ _ =>
      rw [pc] at hpc
      exact absurd hpc (by simp)
  | closing calling call _ held calls => exact ⟨calling, call, held, calls⟩

omit [DecidableEq ι] in
/-- A worker outside a call holds a reference exactly when it has a PCM. -/
theorem Accounted.of_between {st : HalStream n} {worker : Thread} {o c : Nat} (h : Accounted st worker o c)
    (hcalling : st.calling = false) : worker.pc = .idle ∧
      worker.held.length = (extPcmOf st.output.worker).isSome.toNat ∧ o = c + worker.held.length := by
  cases h with
  | between _ pc held calls => exact ⟨pc, held, calls⟩
  | opening calling _ _ _ _ => exact absurd (calling.symm.trans hcalling) (by decide)
  | returned calling _ _ _ _ => exact absurd (calling.symm.trans hcalling) (by decide)
  | closing calling _ _ _ _ => exact absurd (calling.symm.trans hcalling) (by decide)

theorem serves_opens {st st' : HalStream n} {i : ι} (h : st.serves (.beginOpen i) = some st') :
    st.calling = false ∧ pcmCall st.output.out st.output.worker = some .opens ∧ st' = { st with calling := true } := by
  obtain ⟨⟨hcalling, hcall⟩, heq⟩ := Option.ite_none_right_eq_some.mp h
  exact ⟨by simpa using hcalling, hcall, (Option.some.inj heq).symm⟩

theorem serves_closes {st st' : HalStream n} {i : ι} {p : Address} (h : st.serves (.close i p) = some st') :
    st.calling = false ∧ pcmCall st.output.out st.output.worker = some .closes ∧ st' = { st with calling := true } := by
  obtain ⟨⟨hcalling, hcall⟩, heq⟩ := Option.ite_none_right_eq_some.mp h
  exact ⟨by simpa using hcalling, hcall, (Option.some.inj heq).symm⟩

/-- `ext_pcm_open` begins. -/
theorem Accounted.begins {st st' : HalStream n} {worker : Thread} {i : ι} {o c : Nat} {pc : CallPc}
    (h : Accounted st worker o c) (hserves : st.serves (.beginOpen i) = some st') (hpc : inOpen pc = true) :
    Accounted st' ⟨pc, worker.held⟩ o c := by
  obtain ⟨hcalling, hcall, rfl⟩ := serves_opens hserves
  obtain ⟨_, hlength, hcalls⟩ := h.of_between hcalling
  rw [pcmCall_hasPcm hcall] at hlength
  have hheld : worker.held = [] := List.eq_nil_of_length_eq_zero hlength
  rw [hheld] at hcalls
  exact .opening rfl hcall hpc hheld hcalls

/-- `ext_pcm_close` gives up the worker's only reference. -/
theorem Accounted.gives_up {st st' : HalStream n} {worker : Thread} {i : ι} {p : Address} {o c : Nat} {pc : CallPc}
    (h : Accounted st worker o c) (hserves : st.serves (.close i p) = some st') (hp : p ∈ worker.held)
    (hpc : inClose pc = true) : Accounted st' ⟨pc, worker.held.erase p⟩ o (c + 1) := by
  obtain ⟨hcalling, hcall, rfl⟩ := serves_closes hserves
  obtain ⟨_, hlength, hcalls⟩ := h.of_between hcalling
  rw [pcmCall_hasPcm hcall] at hlength
  have hone : worker.held.length = 1 := hlength
  refine .closing rfl hcall hpc (List.eq_nil_of_length_eq_zero ?_) (hone ▸ hcalls)
  rw [List.length_erase_of_mem hp, hone]

omit [DecidableEq ι] in
/-- The worker moves on within `ext_pcm_open`. -/
theorem Accounted.opens_on {st : HalStream n} {worker : Thread} {o c : Nat} {pc : CallPc} (h : Accounted st worker o c)
    (hbefore : inOpen worker.pc = true) (hafter : inOpen pc = true) : Accounted st ⟨pc, worker.held⟩ o c := by
  obtain ⟨hcalling, hcall, hheld, hcalls⟩ := h.of_opening hbefore
  exact .opening hcalling hcall hafter hheld hcalls

omit [DecidableEq ι] in
/-- The worker moves on with the teardown. -/
theorem Accounted.tears_on {st : HalStream n} {worker : Thread} {o c : Nat} {p : Address} {pc : CallPc}
    (h : Accounted st worker o c) (hbefore : worker.pc = .joins p ∨ worker.pc = .destroys p) (hafter : inClose pc = true) :
    Accounted st ⟨pc, worker.held⟩ o c := by
  obtain ⟨hcalling, hcall, hheld, hcalls⟩ := h.of_tearing hbefore
  exact .closing hcalling hcall hafter hheld hcalls

/-- The pointer that `ext_pcm_open` returns is the worker's reference. -/
theorem Accounted.returns {st : HalStream n} {worker : Thread} {o c : Nat} (h : Accounted st worker o c)
    (hbefore : inOpen worker.pc = true) (result : Option Address) :
    Accounted st ⟨.idle, result.toList ++ worker.held⟩ (o + 1) c := by
  obtain ⟨hcalling, hcall, hheld, hcalls⟩ := h.of_opening hbefore
  rw [hheld, List.append_nil]
  refine .returned hcalling hcall rfl ?_ (by rw [hcalls])
  cases result with
  | none => exact Nat.zero_le 1
  | some p => exact le_refl 1

theorem Accounted.moved {s s' : PcmSystem (PipelineKey ι) ι} {st : HalStream n} {i : ι} {t : Thread} {o c : Nat}
    (ht : s'.threads = Function.update s.threads i t) (h : Accounted st t o c) : Accounted st (s'.threads i) o c := by
  rw [ht, Function.update_self]
  exact h

theorem Accounted.step {s s' : PcmSystem (PipelineKey ι) ι} {l : PcmLabel (PipelineKey ι) ι} {es : List (PcmEvent ι)}
    {st st' : HalStream n} {i : ι} {o c : Nat} (h : Accounted st (s.threads i) o c) (hi : worker? l = some i)
    (hserves : st.serves l = some st') (hstep : Stepped strEq s l s' es) :
    Accounted st' (s'.threads i) (o + opens i es) (c + closes i es) := by
  cases hstep with
  | shares j p _ _ _ =>
      cases hi
      exact .moved (s := s) rfl (h.begins hserves rfl)
  | creates j _ _ _ =>
      cases hi
      exact .moved (s := s) rfl (h.begins hserves rfl)
  | createsMap j p hpc _ =>
      cases hi
      cases hserves
      exact .moved (s := s) rfl (h.opens_on (by rw [hpc]; rfl) rfl)
  | setsRun j p hpc _ =>
      cases hi
      cases hserves
      exact .moved (s := s) rfl (h.opens_on (by rw [hpc]; rfl) rfl)
  | counts j p hpc _ =>
      cases hi
      cases hserves
      exact .moved (s := s) rfl (h.opens_on (by rw [hpc]; rfl) rfl)
  | returns j counted hpc =>
      cases hi
      cases hserves
      rw [opens_returned, if_pos rfl]
      exact .moved (s := s) rfl (h.returns (by rw [hpc]; rfl) s.sharedExtPcm)
  | closesLast j p _ hp _ _ =>
      cases hi
      rw [closes_closed, if_pos rfl]
      exact .moved (s := s) rfl (h.gives_up hserves hp rfl)
  | closesMore j p _ hp _ _ =>
      cases hi
      rw [closes_closed, if_pos rfl]
      exact .moved (s := s) rfl (h.gives_up hserves hp rfl)
  | joins j p hpc _ =>
      cases hi
      cases hserves
      exact .moved (s := s) rfl (h.tears_on (Or.inl hpc) rfl)
  | destroys j p hpc _ =>
      cases hi
      cases hserves
      exact .moved (s := s) rfl (h.tears_on (Or.inr hpc) rfl)
  | writes j p key keys _ _ _ =>
      obtain ⟨_, heq⟩ := Option.ite_none_right_eq_some.mp hserves
      cases heq
      cases h with
      | between calling pc held calls => exact .between calling pc held calls
      | opening calling call pc held calls => exact .opening calling call pc held calls
      | returned calling call pc held calls => exact .returned calling call pc held calls
      | closing calling call pc held calls => exact .closing calling call pc held calls
  | mixes p _ _ => cases hi
  | tests p _ _ _ => cases hi

/-! ### Sections -/

omit [DecidableEq ι] in
theorem extPcmOf_signal (pc : WorkerPc) : extPcmOf pc.signal = extPcmOf pc := by cases pc <;> rfl

/-- Only the worker's own sections change its PCM. -/
theorem outputStep_extPcm {s s' : OutputSystem n} {l : OutputLabel n} {es : List OutputEvent}
    (h : outputStep s l = some (s', es)) (hl : ∀ env wake, l ≠ .worker env wake) :
    extPcmOf s'.worker = extPcmOf s.worker := by
  obtain ⟨_, h⟩ := Option.ite_none_left_eq_some.mp h
  cases l with
  | client i l =>
      obtain ⟨r, _, heq⟩ := Option.map_eq_some_iff.mp h
      cases heq
      dsimp only
      split
      · exact extPcmOf_signal s.worker
      · rfl
  | join i =>
      dsimp only at h
      split at h
      · cases h
        rfl
      · cases h
  | worker env wake => exact absurd rfl (hl env wake)
  | workerSpurious =>
      dsimp only at h
      split at h
      · next hworker =>
          cases h
          rw [hworker]
          rfl
      · next hworker =>
          cases h
          rw [hworker]
          rfl
      · cases h

theorem outputStep_section {s s' : OutputSystem n} {env : WorkerEnv} {wake : Option (Fin n)} {es : List OutputEvent}
    (h : outputStep s (.worker env wake) = some (s', es)) :
    ∃ r, workerSection s.out env s.worker = some r ∧ s'.worker = r.pc ∧ s'.freed = s.freed := by
  obtain ⟨_, h⟩ := Option.ite_none_left_eq_some.mp h
  dsimp only [workerStep] at h
  split at h
  · cases h
  · next r hr =>
      refine ⟨r, hr, ?_⟩
      split at h
      · obtain ⟨clients, _, heq⟩ := Option.map_eq_some_iff.mp h
        cases heq
        exact ⟨rfl, rfl⟩
      · cases h
        exact ⟨rfl, rfl⟩

/-- The section of the worker ends with the reference for its PCM, if it has one. -/
theorem Accounted.worker_section {st : HalStream n} {worker : Thread} {o c : Nat} {env : WorkerEnv}
    {wake : Option (Fin n)} {output : OutputSystem n} {events : List OutputEvent} (h : Accounted st worker o c)
    (hready : workerReady st worker env = true) (hkeeps : abandons st.output.out env st.output.worker = false)
    (hstep : outputStep st.output (.worker env wake) = some (output, events)) :
    Accounted (st.after (.worker env wake) output) worker o c := by
  obtain ⟨r, hsection, hworker, _⟩ := outputStep_section hstep
  have hpcm := workerSection_hasPcm hsection hkeeps
  rw [← hworker] at hpcm
  rw [workerReady] at hready
  cases h with
  | between calling pc held calls =>
      have hnone : pcmCall st.output.out st.output.worker = none := by
        cases hcall : pcmCall st.output.out st.output.worker with
        | none => rfl
        | some call =>
            rw [hcall, calling] at hready
            cases call <;> cases hready
      rw [hnone] at hpcm
      exact .between rfl pc (held.trans (congrArg Bool.toNat hpcm.symm)) calls
  | opening calling call pc held calls =>
      rw [call] at hready
      simp only [Bool.and_eq_true, beq_iff_eq] at hready
      rw [hready.1.2] at pc
      cases pc
  | returned calling call pc held calls =>
      -- a PCM that is ready is not NULL: the worker holds the reference that it has counted
      rw [call, pcmCall_ready call hkeeps] at hready
      simp only [Bool.not_true, Bool.false_or, Bool.and_eq_true, Bool.not_eq_true', List.isEmpty_eq_false_iff] at hready
      have hone : worker.held.length = 1 := Nat.le_antisymm held (List.length_pos_iff.mpr hready.2)
      rw [call] at hpcm
      refine .between rfl pc (hone.trans (congrArg Bool.toNat hpcm.symm)) ?_
      rw [calls, hone]
  | closing calling call pc held calls =>
      rw [call] at hready hpcm
      simp only [Bool.and_eq_true, beq_iff_eq] at hready
      refine .between rfl hready.2 ?_ ?_
      · rw [held]
        exact congrArg Bool.toNat hpcm.symm
      · rw [held, calls]
        rfl

omit [DecidableEq ι] in
theorem Accounted.other_section {st : HalStream n} {worker : Thread} {o c : Nat} {l : OutputLabel n}
    {output : OutputSystem n} {events : List OutputEvent} (h : Accounted st worker o c)
    (hl : ∀ env wake, l ≠ .worker env wake) (hready : sectionReady st worker l = true)
    (hstep : outputStep st.output l = some (output, events)) : Accounted (st.after l output) worker o c := by
  have hpcm := outputStep_extPcm hstep hl
  have hcalling : st.calling = false := by
    cases l with
    | client i l => simpa [sectionReady] using hready
    | join i => simpa [sectionReady] using hready
    | worker env wake => exact absurd rfl (hl env wake)
    | workerSpurious => simpa [sectionReady] using hready
  have hafter : st.after l output = { st with output := output } := by
    cases l with
    | client i l => rfl
    | join i => rfl
    | worker env wake => exact absurd rfl (hl env wake)
    | workerSpurious => rfl
  obtain ⟨pc, held, calls⟩ := h.of_between hcalling
  rw [hafter]
  exact .between hcalling pc (hpcm.symm ▸ held) calls

theorem Balanced.init : Balanced [] (HalSystem.init : HalSystem ι n) :=
  ⟨fun _ _ => ⟨rfl, rfl, rfl⟩, fun _ _ hstream => by cases hstream⟩

theorem opens_append (i : ι) (h es : List (PcmEvent ι)) : opens i (h ++ es) = opens i h + opens i es := List.countP_append

theorem closes_append (i : ι) (h es : List (PcmEvent ι)) : closes i (h ++ es) = closes i h + closes i es :=
  List.countP_append

/-- A stream changes, and with it at most the thread of its worker. -/
theorem Balanced.update {h es : List (PcmEvent ι)} {s : HalSystem ι n} {i : ι} {st : HalStream n}
    {pcm : PcmSystem (PipelineKey ι) ι} (hb : Balanced h s)
    (hothers : ∀ j, j ≠ i → pcm.threads j = s.pcm.threads j ∧ opens j es = 0 ∧ closes j es = 0)
    (hself : Accounted st (pcm.threads i) (opens i (h ++ es)) (closes i (h ++ es))) :
    Balanced (h ++ es) { s.setStream i st with pcm := pcm } := by
  have hstreams (j : ι) : (s.setStream i st).streams j = if j = i then some st else s.streams j :=
    Function.update_apply _ _ _ _
  refine ⟨fun j hj => ?_, fun j st' hj => ?_⟩
  · rw [hstreams] at hj
    split at hj
    · cases hj
    · next hne =>
        obtain ⟨hthread, hopens, hcloses⟩ := hothers j hne
        obtain ⟨hbefore, hopened, hclosed⟩ := hb.unopened j hj
        rw [opens_append, closes_append, hopens, hcloses]
        exact ⟨hthread.trans hbefore, hopened, hclosed⟩
  · rw [hstreams] at hj
    split at hj
    · next heq =>
        cases hj
        exact heq ▸ hself
    · next hne =>
        obtain ⟨hthread, hopens, hcloses⟩ := hothers j hne
        rw [opens_append, closes_append, hopens, hcloses]
        show Accounted st' (pcm.threads j) _ _
        rw [hthread]
        exact hb.workers j st' hj

theorem Balanced.step {h es : List (PcmEvent ι)} {s s' : HalSystem ι n} {l : HalLabel ι n} (hb : Balanced h s)
    (hcloses : ClosesItsPcm s l) (hstep : HalStepped s l s' es) : Balanced (h ++ es) s' := by
  cases hstep with
  | opened i allocated calloc p config address out hnone _ =>
      obtain ⟨hthread, hopens, hclosed⟩ := hb.unopened i hnone
      refine hb.update (fun j _ => ⟨rfl, rfl, rfl⟩) ?_
      rw [List.append_nil, hopens, hclosed, hthread]
      exact .between rfl rfl rfl rfl
  | refused i allocated calloc p config address =>
      rw [List.append_nil]
      exact hb
  | output i l st output events hstream hready hout =>
      refine hb.update (fun j _ => ⟨rfl, rfl, rfl⟩) ?_
      rw [List.append_nil]
      have hst := hb.workers i st hstream
      by_cases hl : ∀ env wake, l ≠ .worker env wake
      · exact hst.other_section hl hready hout
      · push Not at hl
        obtain ⟨env, wake, rfl⟩ := hl
        have hkeeps : abandons st.output.out env st.output.worker = false := by
          rw [ClosesItsPcm, hstream] at hcloses
          exact Bool.eq_false_of_not_eq_true fun habandons => hcloses (congrArg some habandons)
        exact hst.worker_section hready hkeeps hout
  | mixer l pcm es hworker hpcm =>
      have hothers (j : ι) := stepped_other hpcm (j := j) (by rw [hworker]; nofun)
      refine ⟨fun j hj => ?_, fun j st hj => ?_⟩
      · obtain ⟨hthread, hopens, hclosed⟩ := hothers j
        rw [opens_append, closes_append, hopens, hclosed]
        exact ⟨hthread.trans (hb.unopened j hj).1, (hb.unopened j hj).2⟩
      · obtain ⟨hthread, hopens, hclosed⟩ := hothers j
        rw [opens_append, closes_append, hopens, hclosed]
        show Accounted st (pcm.threads j) _ _
        rw [hthread]
        exact hb.workers j st hj
  | worker i l st st' pcm es hworker hstream _ hserves hpcm =>
      refine hb.update (fun j hj => stepped_other hpcm (by rw [hworker]; exact fun heq => hj (Option.some.inj heq).symm)) ?_
      rw [opens_append, closes_append]
      exact (hb.workers i st hstream).step hworker hserves hpcm

omit [DecidableEq ι] in
theorem Accounted.terminated {st : HalStream n} {worker : Thread} {o c : Nat} (h : Accounted st worker o c)
    (hterminated : st.output.worker = .terminated) : o = c ∧ ∀ p, worker.references p = 0 := by
  cases h with
  | between calling pc held calls =>
      rw [hterminated] at held
      have hheld : worker.held = [] := List.eq_nil_of_length_eq_zero held
      refine ⟨by rw [calls, hheld]; rfl, fun p => ?_⟩
      rw [(Thread.counts_plain (by rw [pc]; rfl) p).1, hheld]
      rfl
  | opening calling call pc held calls =>
      rw [hterminated] at call
      cases call
  | returned calling call pc held calls =>
      rw [hterminated] at call
      cases call
  | closing calling call pc held calls =>
      rw [hterminated] at call
      cases call

/-- Every worker that has terminated has closed the PCM as often as it has opened it, and when all have, no object
is referenced. -/
theorem references_released {ls : List (HalLabel ι n)} {s : HalSystem ι n} {es : List (PcmEvent ι)}
    (hrun : exec halStep HalSystem.init ls = some (s, es)) (hcloses : Guarded halStep ClosesItsPcm HalSystem.init ls) :
    (∀ i st, s.streams i = some st → st.output.worker = .terminated → opens i es = closes i es) ∧
      ((∀ i st, s.streams i = some st → st.output.worker = .terminated) →
        ∀ i p, (s.pcm.threads i).references p = 0) := by
  have hb : Balanced es s := by
    refine exec_invariant_history Balanced ?_ (h := []) Balanced.init hcloses hrun
    intro h s l t es hb hguard hstep
    exact hb.step hguard (halStepped hstep)
  refine ⟨fun i st hi hterminated => ((hb.workers i st hi).terminated hterminated).1, fun hall i p => ?_⟩
  cases hi : s.streams i with
  | none =>
      rw [(hb.unopened i hi).1]
      rfl
  | some st => exact ((hb.workers i st hi).terminated (hall i st hi)).2 p

end Calls

/-- A stream is opened and its worker opens the PCM for the first frame that is written. -/
def untilOpened (i : Bool) (address : String) : List (HalLabel Bool 1) :=
  [.openOutputStream i true (fun _ => true) ⟨1, 1⟩ ⟨8000, audioFormatPcm16Bit, 3⟩ address,
    .output i workerTurn, .output i writeOneFrame, .pcm (.beginOpen i), .pcm (.proceed i), .pcm (.proceed i),
    .pcm (.proceed i), .pcm (.endOpen i)]

/-- The frame is played and the stream closed; its reference is the last one. -/
def playedAndClosed : List (HalLabel Bool 1) :=
  untilOpened false "bus0" ++
    [.output false workerTurn, .pcm (.write false 0 (false, "bus0")), .output false workerTurn,
      .output false (.client (Fin.last 0) (.standby true 1000000000)), .pcm (.close false 0), .pcm (.mix 0), .pcm (.test 0),
      .pcm (.join false), .pcm (.destroy false), .output false workerTurn, .output false (.join (Fin.last 0))]

theorem references_released_playedAndClosed :
    ∃ s es, exec halStep HalSystem.init playedAndClosed = some (s, es) ∧
      ∀ i st, s.streams i = some st → st.output.worker = .terminated → opens i es = closes i es := by
  obtain ⟨⟨s, es⟩, hrun⟩ : ∃ result, exec halStep HalSystem.init playedAndClosed = some result :=
    Option.isSome_iff_exists.mp (by decide +kernel)
  exact ⟨s, es, hrun, (references_released hrun (by decide +kernel)).1⟩

/-- The opened PCM is not ready, so that the worker leaves with its reference. -/
def notReady : List (HalLabel Bool 1) := untilOpened false "bus0" ++ [.output false failedTurn]

theorem reference_kept :
    ¬ ∀ (ls : List (HalLabel Bool 1)) (s : HalSystem Bool 1) (es : List (PcmEvent Bool)),
      exec halStep HalSystem.init ls = some (s, es) →
        ∀ i st, s.streams i = some st → st.output.worker = .terminated → opens i es = closes i es := by
  intro hall
  obtain ⟨s, es, st, hrun, hstream, hterminated, hopens, hcloses⟩ : ∃ s es st,
      exec halStep HalSystem.init notReady = some (s, es) ∧ s.streams false = some st ∧
        st.output.worker = .terminated ∧ opens false es = 1 ∧ closes false es = 0 :=
    ⟨_, _, _, rfl, rfl, rfl, rfl, rfl⟩
  exact absurd (hall notReady s es hrun false st hstream hterminated) (by rw [hopens, hcloses]; decide)

end Trout.Hal
